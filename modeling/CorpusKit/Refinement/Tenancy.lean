import CorpusKit.Refinement.Scopes
import CorpusKit.Refinement.Workspaces

/-! # Every transaction serves one organization

The transactions of the services write no row of another organization than the
one their actor, or the reference of their workflow, names. -/

namespace CorpusKit

open Transaction QuotaManager

variable {db db' : Db}

/-- An artifact row enters under the identifier just drawn. -/
theorem insertNewArtifact_serves {artifact : Artifact} {u : Unit} {t : Db} (hd : db.Drawn)
    (h : Returns (insertArtifact db.nextId artifact) { db with nextId := db.nextId + 1 } u t) :
    db.Serves artifact.organizationId t := by
  obtain ⟨-, -, -, rfl⟩ := insertArtifact_returns h
  exact ⟨{ Db.Within.refl _ db with artifacts := .draw hd.artifacts rfl },
    { hd.advance with artifacts := hd.artifacts.draw _ }, Nat.le_succ _⟩

/-! ## Submissions -/

namespace JobControlPlane

theorem insertRun_serves {run : Run} {notFound : Error} {runId : Uuid} (hd : db.Drawn)
    (h : Returns (insertRun run notFound) db runId db') :
    db.Serves run.organizationId db' ∧ runId = db.nextId ∧ runId < db'.nextId ∧
      db'.runReplays = db.runReplays := by
  obtain ⟨rfl, -, rfl⟩ := insertRun_returns h
  refine ⟨⟨{ Db.Within.refl _ db with runs := .draw hd.runs rfl },
    { hd.advance with runs := hd.runs.draw _ }, Nat.le_succ _⟩, rfl, Nat.lt_succ_self _, rfl⟩

theorem submitNew_serves {policy : Option QuotaPolicyValues} {s : NewSubmission} {now : Instant}
    {answer : SubmissionResult} (hd : db.Drawn) (h : Returns (submitNew policy s now) db answer db') :
    db.Serves s.organizationId db' := by
  unfold submitNew at h
  obtain ⟨runId, t, hrun, h⟩ := h.bind
  obtain ⟨h₁, -, -, -⟩ := insertRun_serves hd hrun
  obtain ⟨b, t, hreserve, h⟩ := h.bind
  have h₂ := h₁.trans (reserveRun_serves h₁.drawn hreserve)
  obtain ⟨u, t, hadd, h⟩ := h.bind
  have h₃ := h₂.trans (addRunEvent_serves h₂.drawn hadd)
  obtain ⟨u, t, hintent, h⟩ := h.bind
  have h₄ := h₃.trans (addOutboxMessage_serves h₃.drawn hintent rfl)
  obtain ⟨u, t, haudit, h⟩ := h.bind
  have h₅ := h₄.trans (append_serves h₄.drawn haudit)
  obtain ⟨outboxState, t', hstate, h⟩ := h.bind
  obtain rfl := dispatchState_returns hstate
  obtain ⟨-, rfl⟩ := h.pure
  exact h₅

theorem insertSubmission_serves {policy : Option QuotaPolicyValues} {s : NewSubmission}
    {now : Instant} {answer : SubmissionResult} (hd : db.Drawn)
    (h : Returns (insertSubmission policy s now) db answer db') :
    db.Serves s.organizationId db' := by
  unfold insertSubmission at h
  obtain ⟨existing, t, hexisting, h⟩ := h.bind
  obtain ⟨rfl, ⟨rfl, -⟩ | ⟨runId, run, outboxState, rfl, -, -⟩⟩ :=
    existingSubmission_returns hexisting
  · exact submitNew_serves hd h
  · obtain ⟨-, rfl⟩ := h.pure
    exact .refl _ hd

theorem commitCancellation_serves {who : JobActor} {userId runId : Uuid} {read : Run}
    {now : Instant} {answer : Option (Run × OutboxState)} (hd : db.Drawn)
    (h : Returns (commitCancellation who userId runId read now) db answer db') :
    db.Serves who.organizationId db' := by
  unfold commitCancellation at h
  obtain ⟨a, s, hget, h⟩ := h.bind
  obtain ⟨rfl, rfl⟩ := hget.get
  obtain ⟨u, s, htrans, h⟩ := h.bind
  obtain ⟨-, rfl⟩ := ensureTransition_returns htrans
  dsimp only at h
  split at h
  · obtain ⟨-, rfl⟩ := h.pure
    exact .refl _ hd
  · next run hhit =>
    rw [Option.filter_eq_some_iff] at hhit
    obtain ⟨hrun, horg⟩ := Db.run?_some hhit.1
    obtain ⟨u, s, hset, h⟩ := h.bind
    have h₁ := setRun_serves hd hset (hd.runOf hrun horg) horg
    obtain ⟨u, s, hadd, h⟩ := h.bind
    have h₂ := h₁.trans (addRunEvent_serves h₁.drawn hadd)
    obtain ⟨u, s, hintent, h⟩ := h.bind
    have h₃ := h₂.trans (addOutboxMessage_serves h₂.drawn hintent horg)
    obtain ⟨u, s, haudit, h⟩ := h.bind
    have h₄ := h₃.trans (append_serves h₃.drawn haudit)
    obtain ⟨snapshot, s', hsnapshot, h⟩ := h.bind
    obtain ⟨-, -, rfl⟩ := activeRun_returns hsnapshot
    obtain ⟨outboxState, s', hstate, h⟩ := h.bind
    obtain rfl := dispatchState_returns hstate
    obtain ⟨-, rfl⟩ := h.pure
    exact h₄

end JobControlPlane

/-! ## Workflow activities -/

namespace DurableRunStore

theorem applyTransitionControls_serves {org runId : Uuid} {run : Run} {target : RunState}
    {failureCode : Option String} {now : Instant} {u : Unit} (hd : db.Drawn)
    (h : Returns (applyTransitionControls org runId run target failureCode now) db u db') :
    db.Serves org db' := by
  have hrelease {ending : QuotaReservationState} {action : AuditAction}
      {metadata : List (String × AuditValue)}
      (h : Returns (do
        let _ ← releaseRun org runId ending now
        AuditWriter.append org (.service .worker) action .run runId none metadata now) db u db') :
      db.Serves org db' := by
    obtain ⟨b, s, hrelease, haudit⟩ := h.bind
    have h₁ := releaseRun_serves hd hrelease
    exact h₁.trans (append_serves h₁.drawn haudit)
  have hpure (h : Returns (pure () : DbTx Unit) db u db') : db.Serves org db' := by
    obtain ⟨-, rfl⟩ := h.pure
    exact .refl _ hd
  unfold applyTransitionControls at h
  cases target with
  | running =>
    obtain ⟨renewed, s, hrenew, h⟩ := h.bind
    obtain ⟨-, rfl⟩ := h.require
    exact renewRun_serves hd hrenew
  | cancelling => exact append_serves hd h
  | succeeded => exact hrelease h
  | failed => exact hrelease h
  | cancelled => exact hrelease h
  | draft => exact hpure h
  | queued => exact hpure h
  | provisioning => exact hpure h

theorem commitTransition_serves {reference : RunWorkflowReference} {read : Run}
    {transition : Transition} {now : Instant} {b : Bool} (hd : db.Drawn)
    (h : Returns (commitTransition reference read transition now) db b db') :
    db.Serves reference.organizationId db' := by
  unfold commitTransition at h
  obtain ⟨u, s, htrans, h⟩ := h.bind
  obtain ⟨-, rfl⟩ := ensureTransition_returns htrans
  obtain ⟨a, s, hget, h⟩ := h.bind
  obtain ⟨rfl, rfl⟩ := hget.get
  dsimp only at h
  split at h
  · obtain ⟨-, rfl⟩ := h.pure
    exact .refl _ hd
  · next run hhit =>
    rw [Option.filter_eq_some_iff] at hhit
    obtain ⟨hrun, horg⟩ := Db.run?_some hhit.1
    obtain ⟨u, s, hset, h⟩ := h.bind
    have h₁ := setRun_serves hd hset (hd.runOf hrun horg) horg
    obtain ⟨u, s, hadd, h⟩ := h.bind
    have h₂ := h₁.trans (addRunEvent_serves h₁.drawn hadd)
    obtain ⟨u, s, hcontrols, h⟩ := h.bind
    obtain ⟨-, rfl⟩ := h.pure
    exact h₂.trans (applyTransitionControls_serves h₂.drawn hcontrols)

theorem commitProgress_serves {reference : RunWorkflowReference} {read : Run}
    {payload : EventPayload} {b : Bool} (hd : db.Drawn)
    (h : Returns (commitProgress reference read payload) db b db') :
    db.Serves reference.organizationId db' := by
  unfold commitProgress at h
  obtain ⟨a, s, hget, h⟩ := h.bind
  obtain ⟨rfl, rfl⟩ := hget.get
  dsimp only at h
  split at h
  · obtain ⟨-, rfl⟩ := h.pure
    exact .refl _ hd
  · next run hhit =>
    rw [Option.filter_eq_some_iff] at hhit
    obtain ⟨hrun, horg⟩ := Db.run?_some hhit.1
    obtain ⟨u, s, hset, h⟩ := h.bind
    have h₁ := setRun_serves hd hset (hd.runOf hrun horg) horg
    obtain ⟨u, s, hadd, h⟩ := h.bind
    obtain ⟨-, rfl⟩ := h.pure
    exact h₁.trans (addRunEvent_serves h₁.drawn hadd)

theorem recordTerminalAudit_serves {runId : Uuid} {run : Run} {action : AuditAction}
    {identity : ServiceIdentity} {now : Instant} {u : Unit} (hd : db.Drawn)
    (h : Returns (recordTerminalAudit runId run action identity now) db u db') :
    db.Serves run.organizationId db' := by
  unfold recordTerminalAudit at h
  obtain ⟨b, s, hrelease, h⟩ := h.bind
  have h₁ := releaseRun_serves hd hrelease
  exact h₁.trans (append_serves h₁.drawn h)

theorem observeCancellation_serves {runId : Uuid} {run observed : Run} (hd : db.Drawn)
    (hown : db.RunOf run.organizationId runId)
    (h : Returns (observeCancellation runId run) db observed db') :
    db.Serves run.organizationId db' ∧ observed.organizationId = run.organizationId := by
  unfold observeCancellation at h
  obtain ⟨-, h⟩ | ⟨-, h⟩ := h.ite
  · obtain ⟨rfl, rfl⟩ := h.pure
    exact ⟨.refl _ hd, rfl⟩
  · obtain ⟨u, s, htrans, h⟩ := h.bind
    obtain ⟨-, rfl⟩ := ensureTransition_returns htrans
    obtain ⟨u, s, hset, h⟩ := h.bind
    have h₁ := setRun_serves hd hset hown rfl
    obtain ⟨u, s, hadd, h⟩ := h.bind
    obtain ⟨rfl, rfl⟩ := h.pure
    exact ⟨h₁.trans (addRunEvent_serves h₁.drawn hadd), rfl⟩

theorem finishCancellation_serves {runId : Uuid} {run : Run} {now : Instant} {b : Bool}
    (hd : db.Drawn) (hown : db.RunOf run.organizationId runId)
    (h : Returns (finishCancellation runId run now) db b db') : db.Serves run.organizationId db' := by
  unfold finishCancellation at h
  obtain ⟨-, h⟩ | ⟨-, h⟩ := h.ite
  · obtain ⟨u, s, htrans, h⟩ := h.bind
    obtain ⟨-, rfl⟩ := ensureTransition_returns htrans
    obtain ⟨u, s, hset, h⟩ := h.bind
    have h₁ := setRun_serves hd hset hown rfl
    obtain ⟨u, s, hadd, h⟩ := h.bind
    obtain ⟨-, rfl⟩ := h.pure
    exact h₁.trans (addRunEvent_serves h₁.drawn hadd)
  · obtain ⟨u, s, hset, h⟩ := h.bind
    obtain ⟨-, rfl⟩ := h.pure
    exact setRun_serves hd hset hown rfl

theorem adoptCancelled_serves {runId : Uuid} {run : Run} {now : Instant} {answer : ArtifactCommit}
    (hd : db.Drawn) (hown : db.RunOf run.organizationId runId)
    (h : Returns (adoptCancelled runId run now) db answer db') : db.Serves run.organizationId db' := by
  unfold adoptCancelled cancelLocked at h
  obtain ⟨cancelled, s, hlock, h⟩ := h.bind
  obtain ⟨observed, s', hobserve, hfinish⟩ := hlock.bind
  obtain ⟨h₁, horg⟩ := observeCancellation_serves hd hown hobserve
  have h₂ : db.Serves run.organizationId s := by
    refine h₁.trans ?_
    rw [← horg] at hown h₁ ⊢
    exact finishCancellation_serves h₁.drawn (hown.later h₁) hfinish
  obtain ⟨-, h⟩ | ⟨-, h⟩ := h.ite
  · obtain ⟨u, s, haudit, h⟩ := h.bind
    obtain ⟨-, rfl⟩ := h.pure
    exact h₂.trans (recordTerminalAudit_serves h₂.drawn haudit)
  · obtain ⟨-, rfl⟩ := h.pure
    exact h₂

theorem commitDatgPublication_serves {runId : Uuid} {run : Run} {adopted : AdoptedArtifact}
    {u : Unit} (hd : db.Drawn) (h : Returns (commitDatgPublication runId run adopted) db u db') :
    db.Serves run.organizationId db' := by
  unfold commitDatgPublication at h
  split at h
  · obtain ⟨-, rfl⟩ := h.pure
    exact .refl _ hd
  · obtain ⟨u, s, hreq, h⟩ := h.bind
    obtain ⟨-, rfl⟩ := hreq.require
    obtain ⟨id, s, hid, h⟩ := h.bind
    obtain ⟨rfl, rfl⟩ := uuid4_returns hid
    obtain ⟨a, s, hget, h⟩ := h.bind
    obtain ⟨rfl, rfl⟩ := hget.get
    obtain ⟨-, h⟩ | ⟨-, h⟩ := h.ite
    · obtain rfl := h.set
      exact ⟨{ Db.Within.refl _ db with publications := .draw hd.publications rfl },
        { hd.advance with publications := hd.publications.draw _ }, Nat.le_succ _⟩
    · obtain ⟨-, rfl⟩ := verifyPublication_returns h
      exact ⟨{ Db.Within.refl _ db with memberships := rfl }, hd.advance, Nat.le_succ _⟩

theorem adoptResult_serves {policy : Option QuotaPolicyValues} {runId : Uuid} {run : Run}
    {adopted : AdoptedArtifact} {now : Instant} {answer : ArtifactCommit} (hd : db.Drawn)
    (hown : db.RunOf run.organizationId runId)
    (h : Returns (adoptResult policy runId run adopted now) db answer db') :
    db.Serves run.organizationId db' := by
  unfold adoptResult at h
  obtain ⟨artifactId, s, hid, h⟩ := h.bind
  obtain ⟨rfl, rfl⟩ := uuid4_returns hid
  obtain ⟨u, s, hinsert, h⟩ := h.bind
  have h₁ : db.Serves run.organizationId s := insertNewArtifact_serves hd hinsert
  obtain ⟨u, s, hpublish, h⟩ := h.bind
  have h₂ := h₁.trans (commitDatgPublication_serves h₁.drawn hpublish)
  obtain ⟨u, s, hconsume, h⟩ := h.bind
  have h₃ := h₂.trans (consumeArtifact_serves h₂.drawn hconsume)
  obtain ⟨u, s, htrans, h⟩ := h.bind
  obtain ⟨-, rfl⟩ := ensureTransition_returns htrans
  obtain ⟨u, s, hset, h⟩ := h.bind
  have h₄ := h₃.trans (setRun_serves h₃.drawn hset (hown.later h₃) rfl)
  obtain ⟨u, s, hadd, h⟩ := h.bind
  have h₅ := h₄.trans (addRunEvent_serves h₄.drawn hadd)
  obtain ⟨u, s, haudit, h⟩ := h.bind
  have h₆ := h₅.trans (append_serves h₅.drawn haudit)
  obtain ⟨u, s, hterminal, h⟩ := h.bind
  obtain ⟨-, rfl⟩ := h.pure
  exact h₆.trans (recordTerminalAudit_serves h₆.drawn hterminal)

theorem commitAdoptedResult_serves {policy : Option QuotaPolicyValues}
    {reference : RunWorkflowReference} {adopted : AdoptedArtifact} {now : Instant}
    {answer : ArtifactCommit} (hd : db.Drawn)
    (h : Returns (commitAdoptedResult policy reference adopted now) db answer db') :
    db.Serves reference.organizationId db' := by
  unfold commitAdoptedResult at h
  obtain ⟨run, s, hread, h⟩ := h.bind
  obtain ⟨hrow, -, -, rfl⟩ := readRun_returns hread
  obtain ⟨hrun, horg⟩ := Db.run?_some hrow
  have hown : db.RunOf run.organizationId reference.runId :=
    hd.runOf hrun rfl
  obtain ⟨u, s, hreq, h⟩ := h.bind
  obtain ⟨-, rfl⟩ := hreq.require
  obtain ⟨-, h⟩ | ⟨-, h⟩ := h.ite
  · exact horg ▸ adoptCancelled_serves hd hown h
  · obtain ⟨-, h⟩ | ⟨-, h⟩ := h.ite
    · obtain ⟨rfl, -⟩ := adoptAgain_returns h
      exact .refl _ hd
    · obtain ⟨u, s, hreq, h⟩ := h.bind
      obtain ⟨-, rfl⟩ := hreq.require
      exact horg ▸ adoptResult_serves hd hown h

end DurableRunStore

/-! ## Artifacts and manifests -/

namespace ArtifactService

theorem insertUpload_serves {policy : Option QuotaPolicyValues} {who : ArtifactActor}
    {userId : Uuid} {upload : Upload} {retentionUntil now : Instant} {id : Uuid} (hd : db.Drawn)
    (h : Returns (insertUpload policy who userId upload retentionUntil now) db id db') :
    db.Serves who.organizationId db' := by
  unfold insertUpload at h
  obtain ⟨user, s, hscope, h⟩ := h.bind
  obtain ⟨-, rfl⟩ := authorizeScope_returns hscope
  obtain ⟨u, s, hconsume, h⟩ := h.bind
  have h₁ := consumeArtifact_serves hd hconsume
  obtain ⟨artifactId, s, hid, h⟩ := h.bind
  obtain ⟨rfl, rfl⟩ := uuid4_returns hid
  obtain ⟨u, s, hinsert, h⟩ := h.bind
  have h₂ := h₁.trans (insertNewArtifact_serves h₁.drawn hinsert)
  obtain ⟨u, s, haudit, h⟩ := h.bind
  obtain ⟨-, rfl⟩ := h.pure
  exact h₂.trans (append_serves h₂.drawn haudit)

theorem tombstone_serves {who : ArtifactActor} {projectId artifactId : Uuid} {now : Instant}
    {u : Unit} (hd : db.Drawn) (h : Returns (tombstone who projectId artifactId now) db u db') :
    db.Serves who.organizationId db' := by
  unfold tombstone at h
  obtain ⟨user, s, hscope, h⟩ := h.bind
  obtain ⟨-, rfl⟩ := authorizeScope_returns hscope
  obtain ⟨a, s, hget, h⟩ := h.bind
  obtain ⟨rfl, rfl⟩ := hget.get
  obtain ⟨artifact, s, hfound, h⟩ := h.bind
  obtain ⟨hrow, rfl⟩ := hfound.found
  rw [Option.filter_eq_some_iff] at hrow
  simp only [Bool.and_eq_true, beq_iff_eq] at hrow
  obtain ⟨hlookup, ⟨horg, -⟩, -⟩ := hrow
  have hold : ∀ row, db.artifacts.lookup artifactId = some row →
      row.organizationId = who.organizationId := by
    intro row hrow
    rw [hlookup] at hrow
    cases hrow
    exact horg
  obtain ⟨u, s, hset, h⟩ := h.bind
  have h₁ : db.Serves who.organizationId s := by
    obtain rfl := hset.set
    exact ⟨{ Db.Within.refl _ db with artifacts := .insert hold horg },
      { hd with artifacts := hd.artifacts.insert (hd.artifacts _ _ hlookup) _ }, Nat.le_refl _⟩
  exact h₁.trans (append_serves h₁.drawn h)

end ArtifactService

namespace RunManifestService

theorem recordExecution_serves {reference : RunWorkflowReference} {facts : TrustedExecutionFacts}
    {inputs : List InputDigest} {b : Bool} (hd : db.Drawn)
    (h : Returns (recordExecution reference facts inputs) db b db') :
    db.Serves reference.organizationId db' := by
  unfold recordExecution at h
  obtain ⟨run, s, hrun, h⟩ := h.bind
  obtain ⟨hrow, -, rfl⟩ := runRow_returns hrun
  obtain ⟨-, horg⟩ := Db.run?_some hrow
  obtain ⟨u, s, hreq, h⟩ := h.bind
  obtain ⟨-, rfl⟩ := hreq.require
  obtain ⟨u, s, hreq, h⟩ := h.bind
  obtain ⟨-, rfl⟩ := hreq.require
  obtain ⟨a, s, hget, h⟩ := h.bind
  obtain ⟨rfl, rfl⟩ := hget.get
  obtain ⟨u, s, hreq, h⟩ := h.bind
  obtain ⟨-, rfl⟩ := hreq.require
  split at h
  · next hnone =>
    obtain ⟨u, s, hset, h⟩ := h.bind
    obtain rfl := hset.set
    obtain ⟨-, rfl⟩ := h.pure
    refine ⟨{ Db.Within.refl _ db with facts := .insert (fun row hrow => ?_) horg },
      { hd with runs := hd.runs }, Nat.le_refl _⟩
    rw [hnone] at hrow
    cases hrow
  · obtain ⟨u, s, hreq, h⟩ := h.bind
    obtain ⟨-, rfl⟩ := hreq.require
    obtain ⟨-, rfl⟩ := h.pure
    exact .refl _ hd

theorem commitReplayComparison_serves {runId : Uuid} {run : Run} {manifestArtifactId : Uuid}
    {expected : Option RunManifest} {comparison : List (String × AuditValue)} {now : Instant}
    {u : Unit} (hd : db.Drawn)
    (h : Returns (commitReplayComparison runId run manifestArtifactId expected comparison now)
      db u db') : db.Serves run.organizationId db' := by
  unfold commitReplayComparison at h
  obtain ⟨a, s, hget, h⟩ := h.bind
  obtain ⟨rfl, rfl⟩ := hget.get
  split at h
  · obtain ⟨-, rfl⟩ := h.pure
    exact .refl _ hd
  · next replay hreplay =>
    rw [Option.filter_eq_some_iff, beq_iff_eq] at hreplay
    split at h
    · obtain ⟨-, rfl⟩ := h.require
      exact .refl _ hd
    · obtain ⟨u, s, hreq, h⟩ := h.bind
      obtain ⟨-, rfl⟩ := hreq.require
      obtain ⟨u, s, hset, h⟩ := h.bind
      obtain rfl := hset.set
      have hold : ∀ row, db.runReplays.lookup runId = some row →
          row.organizationId = run.organizationId := by
        intro row hrow
        rw [hreplay.1] at hrow
        cases hrow
        exact hreplay.2
      have h₁ : db.Serves run.organizationId { db with
          runReplays := db.runReplays.insert runId
            { replay with observedManifestArtifactId := some manifestArtifactId } } :=
        ⟨{ Db.Within.refl _ db with replays := .insert hold hreplay.2 },
          { hd with replays := hd.replays.insert (hd.replays _ _ hreplay.1) _ }, Nat.le_refl _⟩
      exact h₁.trans (append_serves h₁.drawn h)

theorem manifestRow_serves {policy : Option QuotaPolicyValues} {runId : Uuid} {run : Run}
    {manifest : RunManifest} {retentionUntil now : Instant} {answer : Uuid × Bool} (hd : db.Drawn)
    (h : Returns (manifestRow policy runId run manifest retentionUntil now) db answer db') :
    db.Serves run.organizationId db' := by
  unfold manifestRow at h
  obtain ⟨a, s, hget, h⟩ := h.bind
  obtain ⟨rfl, rfl⟩ := hget.get
  dsimp only at h
  split at h
  · obtain ⟨u, s, hreq, h⟩ := h.bind
    obtain ⟨-, rfl⟩ := hreq.require
    obtain ⟨-, rfl⟩ := h.pure
    exact .refl _ hd
  · obtain ⟨artifactId, s, hid, h⟩ := h.bind
    obtain ⟨rfl, rfl⟩ := uuid4_returns hid
    obtain ⟨u, s, hinsert, h⟩ := h.bind
    have h₁ : db.Serves run.organizationId s := insertNewArtifact_serves hd hinsert
    obtain ⟨u, s, hconsume, h⟩ := h.bind
    have h₂ := h₁.trans (consumeArtifact_serves h₁.drawn hconsume)
    obtain ⟨u, s, haudit, h⟩ := h.bind
    obtain ⟨-, rfl⟩ := h.pure
    exact h₂.trans (append_serves h₂.drawn haudit)

theorem finalizeManifest_serves {policy : Option QuotaPolicyValues}
    {reference : RunWorkflowReference} {factsSha256 : Sha256} {outputs : List (Uuid × Artifact)}
    {manifest : RunManifest} {expected : Option RunManifest}
    {comparison : List (String × AuditValue)} {retentionUntil now : Instant} {answer : Uuid × Bool}
    (hd : db.Drawn)
    (h : Returns (finalizeManifest policy reference factsSha256 outputs manifest expected comparison
      retentionUntil now) db answer db') : db.Serves reference.organizationId db' := by
  unfold finalizeManifest at h
  obtain ⟨run, s, hread, h⟩ := h.bind
  obtain ⟨hrow, -, rfl⟩ := runRow_returns hread
  obtain ⟨-, horg⟩ := Db.run?_some hrow
  obtain ⟨u, s, hreq, h⟩ := h.bind
  obtain ⟨-, rfl⟩ := hreq.require
  obtain ⟨u, s, hreq, h⟩ := h.bind
  obtain ⟨-, rfl⟩ := hreq.require
  obtain ⟨a, s, hget, h⟩ := h.bind
  obtain ⟨rfl, rfl⟩ := hget.get
  obtain ⟨recorded, s, hfound, h⟩ := h.bind
  obtain ⟨hrecorded, rfl⟩ := hfound.found
  rw [Option.filter_eq_some_iff] at hrecorded
  simp only [Bool.and_eq_true, beq_iff_eq] at hrecorded
  obtain ⟨hlookup, hown, -⟩ := hrecorded
  split at h
  · obtain ⟨artifact, s, hartifact, h⟩ := h.bind
    obtain ⟨-, -, -, -, rfl⟩ := activeArtifact_returns hartifact
    obtain ⟨-, rfl⟩ := h.pure
    exact .refl _ hd
  · obtain ⟨u, s, hreq, h⟩ := h.bind
    obtain ⟨-, rfl⟩ := hreq.require
    obtain ⟨u, s, hreq, h⟩ := h.bind
    obtain ⟨-, rfl⟩ := hreq.require
    obtain ⟨⟨artifactId, created⟩, s, hmanifest, h⟩ := h.bind
    have h₁ : db.Serves reference.organizationId s := horg ▸ manifestRow_serves hd hmanifest
    obtain ⟨u, t, hset, h⟩ := h.bind
    obtain rfl := hset.modify
    have hold : ∀ row, s.runExecutionFacts.lookup reference.runId = some row →
        row.organizationId = reference.organizationId := by
      refine h₁.within.facts.own fun row hrow => ?_
      rw [hlookup] at hrow
      cases hrow
      exact hown
    have hmanifested : s.Serves reference.organizationId { s with
        runExecutionFacts := s.runExecutionFacts.insert reference.runId
          { recorded with
            manifestArtifactId := some artifactId, manifestSha256 := some manifest.sha256 } } :=
      ⟨{ Db.Within.refl _ s with facts := .insert hold hown },
        { h₁.drawn with runs := h₁.drawn.runs }, Nat.le_refl _⟩
    have h₂ := h₁.trans hmanifested
    obtain ⟨u, t, hcompare, h⟩ := h.bind
    obtain ⟨-, rfl⟩ := h.pure
    exact h₂.trans (horg ▸ commitReplayComparison_serves h₂.drawn hcompare)

theorem completeReplay_serves {reference : RunWorkflowReference} {manifestArtifactId : Uuid}
    {expected : Option RunManifest} {comparison : List (String × AuditValue)} {now : Instant}
    {u : Unit} (hd : db.Drawn)
    (h : Returns (completeReplay reference manifestArtifactId expected comparison now) db u db') :
    db.Serves reference.organizationId db' := by
  unfold completeReplay at h
  obtain ⟨run, s, hread, h⟩ := h.bind
  obtain ⟨hrow, -, rfl⟩ := runRow_returns hread
  exact (Db.run?_some hrow).2 ▸ commitReplayComparison_serves hd h

/-! ## Replays -/

theorem replayNew_serves {policy : Option QuotaPolicyValues} {s : NewReplay} {userId : Uuid}
    {source : ReplaySource} {now : Instant} {answer : ReplayCreation} (hd : db.Drawn)
    (h : Returns (replayNew policy s userId source now) db answer db') :
    db.Serves s.who.organizationId db' := by
  unfold replayNew at h
  obtain ⟨runId, t, hrun, h⟩ := h.bind
  obtain ⟨h₁, hid, hlt, hreplays⟩ := JobControlPlane.insertRun_serves hd hrun
  have hfree : ∀ row, t.runReplays.lookup runId = some row →
      row.organizationId = s.who.organizationId := by
    intro row hrow
    rw [hreplays, hid, hd.replays.none] at hrow
    cases hrow
  obtain ⟨b, t', hreserve, h⟩ := h.bind
  have hreserved := reserveRun_serves h₁.drawn hreserve
  have h₂ := h₁.trans hreserved
  obtain ⟨u, t'', hlineage, h⟩ := h.bind
  obtain rfl := hlineage.modify
  have hold := hreserved.within.replays.own hfree
  have hnew : runId < t'.nextId := lt_of_lt_of_le hlt hreserved.next
  have hlinked : t'.Serves s.who.organizationId { t' with
      runReplays := t'.runReplays.insert runId (replayLineage s userId source) } :=
    ⟨{ Db.Within.refl _ t' with replays := .insert hold rfl },
      { h₂.drawn with replays := h₂.drawn.replays.insert hnew _ }, Nat.le_refl _⟩
  have h₃ := h₂.trans hlinked
  obtain ⟨u, t, hadd, h⟩ := h.bind
  have h₄ := h₃.trans (addRunEvent_serves h₃.drawn hadd)
  obtain ⟨u, t, hintent, h⟩ := h.bind
  have h₅ := h₄.trans (addOutboxMessage_serves h₄.drawn hintent rfl)
  obtain ⟨u, t, haudit, h⟩ := h.bind
  obtain ⟨-, rfl⟩ := h.pure
  exact h₅.trans (append_serves h₅.drawn haudit)

theorem insertReplay_serves {admits : RunKind → RunSpec → Bool} {policy : Option QuotaPolicyValues}
    {s : NewReplay} {now : Instant} {answer : ReplayCreation} (hd : db.Drawn)
    (h : Returns (insertReplay admits policy s now) db answer db') :
    db.Serves s.who.organizationId db' := by
  unfold insertReplay at h
  obtain ⟨userId, t, hactor, h⟩ := h.bind
  obtain rfl := actor_returns hactor
  obtain ⟨source, t, hsource, h⟩ := h.bind
  obtain ⟨rfl, -, -, -, -⟩ := sourceManifestRows_returns hsource
  obtain ⟨u, t, hreq, h⟩ := h.bind
  obtain ⟨-, rfl⟩ := hreq.require
  obtain ⟨a, t, hget, h⟩ := h.bind
  obtain ⟨rfl, rfl⟩ := hget.get
  split at h
  · obtain ⟨replay, t, hcheck, h⟩ := h.bind
    obtain ⟨rfl, -, -⟩ := sameReplay_returns hcheck
    obtain ⟨-, rfl⟩ := h.pure
    exact .refl _ hd
  · obtain ⟨u, t, hreq, h⟩ := h.bind
    obtain ⟨-, rfl⟩ := hreq.require
    exact replayNew_serves hd h

end RunManifestService

/-! ## Projects and corpora -/

namespace ProjectWorkspace

theorem createProject_serves {who : WorkspaceActor} {name : String} {now : Instant} {id : Uuid}
    (hd : db.Drawn) (h : Returns (createProject who name now) db id db') :
    db.Serves who.organizationId db' := by
  unfold createProject at h
  obtain ⟨⟨userId, role⟩, s, hactor, h⟩ := h.bind
  obtain rfl := actor_returns hactor
  obtain ⟨u, s, hreq, h⟩ := h.bind
  obtain ⟨-, rfl⟩ := hreq.require
  obtain ⟨projectId, s, hid, h⟩ := h.bind
  obtain ⟨rfl, rfl⟩ := uuid4_returns hid
  obtain ⟨a, s, hget, h⟩ := h.bind
  obtain ⟨rfl, rfl⟩ := hget.get
  obtain ⟨u, s, hreq, h⟩ := h.bind
  obtain ⟨-, rfl⟩ := hreq.require
  obtain ⟨u, s, hset, h⟩ := h.bind
  have h₁ : db.Serves who.organizationId s := by
    obtain rfl := hset.set
    exact ⟨{ Db.Within.refl _ db with projects := .draw hd.projects rfl },
      { hd.advance with projects := hd.projects.draw _ }, Nat.le_succ _⟩
  obtain ⟨u, s, haudit, h⟩ := h.bind
  obtain ⟨-, rfl⟩ := h.pure
  exact h₁.trans (append_serves h₁.drawn haudit)

/-- The sentences of a new version touch no other's. -/
theorem insertSentences_outside {org v : Uuid} {texts : List String} {ordinal : Nat}
    {sentences : Table (Uuid × Nat) Sentence} (hnew : ∀ n s, sentences.lookup (v, n) = some s →
      s.organizationId = org) :
    Table.Outside (fun _ row => row.organizationId = org) sentences
      (insertSentences org v ordinal texts sentences) := by
  induction texts generalizing ordinal sentences with
  | nil => exact .refl _
  | cons text texts ih =>
    have hinsert : Table.Outside (fun _ row => row.organizationId = org) sentences
        (sentences.insert (v, ordinal) ⟨org, text⟩) := .insert (hnew ordinal) rfl
    exact hinsert.trans (ih fun n => hinsert.own (hnew n))

theorem insertVersion_serves {version : CorpusVersion} {texts : List String} {operation : String}
    {id : Uuid} (hd : db.Drawn) (h : Returns (insertVersion version texts operation) db id db') :
    db.Serves version.organizationId db' := by
  obtain ⟨rfl, -, rfl⟩ := insertVersion_returns h
  refine ⟨{ Db.Within.refl _ db with
      versions := .draw hd.versions rfl
      sentences := insertSentences_outside fun n s hs => ?_ },
    { hd.advance with
      versions := hd.versions.draw _
      sentences := fun hs => ?_ }, Nat.le_succ _⟩
  · exact absurd (hd.sentences hs) (Nat.lt_irrefl _)
  · rcases mem_insertSentences hs with ⟨rfl, -⟩ | hold
    · exact Nat.lt_succ_self _
    · exact Nat.lt_succ_of_lt (hd.sentences hold)

theorem createCorpus_serves {policy : Option QuotaPolicyValues} {who : WorkspaceActor}
    {projectId : Uuid} {name : String} {prepared : PreparedCorpus} {now : Instant} {id : Uuid}
    (hd : db.Drawn) (h : Returns (createCorpus policy who projectId name prepared now) db id db') :
    db.Serves who.organizationId db' := by
  unfold createCorpus at h
  obtain ⟨⟨userId, role⟩, s, hactor, h⟩ := h.bind
  obtain rfl := actor_returns hactor
  obtain ⟨u, s, hreq, h⟩ := h.bind
  obtain ⟨-, rfl⟩ := hreq.require
  obtain ⟨u, s, hconsume, h⟩ := h.bind
  have h₁ := consumeCorpusSentences_serves hd hconsume
  obtain ⟨a, t, hget, h⟩ := h.bind
  obtain ⟨rfl, rfl⟩ := hget.get
  obtain ⟨u, t, hreq, h⟩ := h.bind
  obtain ⟨-, rfl⟩ := hreq.require
  obtain ⟨u, t, hreq, h⟩ := h.bind
  obtain ⟨-, rfl⟩ := hreq.require
  obtain ⟨corpusId, t, hid, h⟩ := h.bind
  obtain ⟨rfl, rfl⟩ := uuid4_returns hid
  obtain ⟨u, t, hset, h⟩ := h.bind
  have h₂ : db.Serves who.organizationId t := by
    obtain rfl := hset.modify
    exact h₁.trans ⟨{ Db.Within.refl _ s with corpora := .draw h₁.drawn.corpora rfl },
      { h₁.drawn.advance with corpora := h₁.drawn.corpora.draw _ }, Nat.le_succ _⟩
  obtain ⟨v, t, hversion, h⟩ := h.bind
  have h₃ := h₂.trans (insertVersion_serves h₂.drawn hversion)
  obtain ⟨u, t, haudit, h⟩ := h.bind
  obtain ⟨-, rfl⟩ := h.pure
  exact h₃.trans (append_serves h₃.drawn haudit)

theorem createVersion_serves {policy : Option QuotaPolicyValues} {who : WorkspaceActor}
    {projectId corpusId : Uuid} {prepared : PreparedCorpus} {operation : String} {now : Instant}
    {id : Uuid} (hd : db.Drawn)
    (h : Returns (createVersion policy who projectId corpusId prepared operation now) db id db') :
    db.Serves who.organizationId db' := by
  unfold createVersion at h
  obtain ⟨⟨userId, role⟩, s, hactor, h⟩ := h.bind
  obtain rfl := actor_returns hactor
  obtain ⟨u, s, hreq, h⟩ := h.bind
  obtain ⟨-, rfl⟩ := hreq.require
  obtain ⟨u, s, hconsume, h⟩ := h.bind
  have h₁ := consumeCorpusSentences_serves hd hconsume
  obtain ⟨a, t, hget, h⟩ := h.bind
  obtain ⟨rfl, rfl⟩ := hget.get
  obtain ⟨u, t, hreq, h⟩ := h.bind
  obtain ⟨-, rfl⟩ := hreq.require
  obtain ⟨u, t, hreq, h⟩ := h.bind
  obtain ⟨-, rfl⟩ := hreq.require
  obtain ⟨latest, t, hfound, h⟩ := h.bind
  obtain ⟨-, rfl⟩ := hfound.found
  obtain ⟨v, t, hversion, h⟩ := h.bind
  have h₂ := h₁.trans (insertVersion_serves h₁.drawn hversion)
  obtain ⟨u, t, haudit, h⟩ := h.bind
  obtain ⟨-, rfl⟩ := h.pure
  exact h₂.trans (append_serves h₂.drawn haudit)

end ProjectWorkspace

/-! ## Deletion -/

namespace ProjectDeletion

theorem schedule_serves {org userId projectId : Uuid} {project : Project}
    {requestId : Option String} {retention : Duration} {now : Instant} {u : Unit} (hd : db.Drawn)
    (hproject : db.projects.lookup projectId = some project) (horg : project.organizationId = org)
    (h : Returns (schedule org userId projectId project requestId retention now) db u db') :
    db.Serves org db' := by
  unfold schedule at h
  obtain ⟨a, s, hget, h⟩ := h.bind
  obtain ⟨rfl, rfl⟩ := hget.get
  obtain ⟨u, s, hreq, h⟩ := h.bind
  obtain ⟨-, rfl⟩ := hreq.require
  obtain ⟨u, s, hset, h⟩ := h.bind
  have h₁ : db.Serves org s := by
    obtain rfl := hset.set
    have hold : ∀ row, db.projects.lookup projectId = some row → row.organizationId = org := by
      intro row hrow
      rw [hproject] at hrow
      cases hrow
      exact horg
    have hartifacts : ∀ (k : Uuid) (row : Artifact),
        scheduleArtifact org projectId now (now + retention) row = row ∨
          (row.organizationId = org ∧
            (scheduleArtifact org projectId now (now + retention) row).organizationId = org) := by
      intro k row
      unfold scheduleArtifact
      split
      · next hmine =>
        simp only [isProjectArtifact, Bool.and_eq_true, beq_iff_eq] at hmine
        exact .inr ⟨hmine.1.1, hmine.1.1⟩
      · exact .inl rfl
    exact ⟨{ Db.Within.refl _ db with
        artifacts := .mapRows hartifacts
        projects := .insert hold horg },
      { hd with
        artifacts := hd.artifacts.mapRows _
        projects := hd.projects.insert (hd.projects _ _ hproject) _ }, Nat.le_refl _⟩
  exact h₁.trans (append_serves h₁.drawn h)

theorem request_serves {who : WorkspaceActor} {projectId : Uuid} {confirmation : String}
    {retention : Duration} {now : Instant} {u : Unit} (hd : db.Drawn)
    (h : Returns (request who projectId confirmation retention now) db u db') :
    db.Serves who.organizationId db' := by
  unfold request at h
  obtain ⟨⟨userId, role⟩, s, hactor, h⟩ := h.bind
  obtain rfl := ProjectWorkspace.actor_returns hactor
  obtain ⟨u, s, hreq, h⟩ := h.bind
  obtain ⟨-, rfl⟩ := hreq.require
  obtain ⟨u, s, hreq, h⟩ := h.bind
  obtain ⟨-, rfl⟩ := hreq.require
  obtain ⟨a, s, hget, h⟩ := h.bind
  obtain ⟨rfl, rfl⟩ := hget.get
  obtain ⟨project, s, hfound, h⟩ := h.bind
  obtain ⟨hproject, rfl⟩ := hfound.found
  rw [Option.filter_eq_some_iff, beq_iff_eq] at hproject
  obtain ⟨u, s, hreq, h⟩ := h.bind
  obtain ⟨-, rfl⟩ := hreq.require
  split at h
  · obtain ⟨-, rfl⟩ := h.pure
    exact .refl _ hd
  · exact schedule_serves hd hproject.1 hproject.2 h

end ProjectDeletion

/-! ## Policies -/

theorem replacePolicy_serves {current : Option QuotaPolicyValues} {org : Uuid}
    {policy : QuotaPolicyValues} {requestId : Option String} {now : Instant} {u : Unit}
    (hd : db.Drawn) (h : Returns (replacePolicy current org policy requestId now) db u db') :
    db.Serves org db' := by
  unfold replacePolicy at h
  obtain ⟨⟨loaded, usage⟩, s, hlock, h⟩ := h.bind
  obtain ⟨-, -, rfl⟩ := locked_returns hlock
  obtain ⟨u, s, hreq, h⟩ := h.bind
  obtain ⟨-, rfl⟩ := hreq.require
  obtain ⟨a, s, hget, h⟩ := h.bind
  obtain ⟨rfl, rfl⟩ := hget.get
  obtain ⟨u, s, hreq, h⟩ := h.bind
  obtain ⟨-, rfl⟩ := hreq.require
  obtain ⟨committed, s, hfound, h⟩ := h.bind
  obtain ⟨-, rfl⟩ := hfound.found
  obtain ⟨u, s, hset, h⟩ := h.bind
  have h₁ : db.Serves org s := by
    obtain rfl := hset.set
    exact ⟨{ Db.Within.refl _ db with policies := .insert (fun _ _ => rfl) rfl },
      { hd with runs := hd.runs }, Nat.le_refl _⟩
  exact h₁.trans (append_serves h₁.drawn h)

theorem ensurePlatformRows_serves {org : Uuid} {u : Unit} (hd : db.Drawn)
    (h : Returns (ensurePlatformRows org) db u db') : db.Serves org db' := by
  unfold ensurePlatformRows at h
  obtain ⟨a, s, hget, h⟩ := h.bind
  obtain ⟨rfl, rfl⟩ := hget.get
  obtain rfl := h.set
  refine ⟨{ Db.Within.refl _ db with policies := ?_, usages := ?_, heads := ?_ },
    { hd with runs := hd.runs }, Nat.le_refl _⟩
  all_goals
    dsimp only
    split
    · exact .refl _
    · exact .insert (fun _ _ => rfl) rfl

end CorpusKit
