import CorpusKit.Persistence.Invariants

/-! # What the statements do

One lemma for each statement and each quota function: if it returns, what it
has checked and what it has left. The bodies of the services are taken apart
with these lemmas and never unfolded further. -/

namespace CorpusKit

open Transaction

variable {db db' : Db}

theorem uuid4_returns {id : Uuid} (h : Returns uuid4 db id db') :
    id = db.nextId ∧ db' = { db with nextId := db.nextId + 1 } := by
  unfold uuid4 at h
  obtain ⟨a, s, hget, h⟩ := h.bind
  obtain ⟨rfl, rfl⟩ := hget.get
  obtain ⟨u, s, hset, h⟩ := h.bind
  obtain rfl := hset.set
  obtain ⟨hid, hdb⟩ := h.pure
  exact ⟨hid.symm, hdb.symm⟩

theorem setRun_returns {runId : Uuid} {run : Run} {u : Unit}
    (h : Returns (setRun runId run) db u db') :
    db' = { db with runs := db.runs.insert runId run } := h.modify.symm

theorem addRunEvent_returns {org runId : Uuid} {sequence : Nat} {eventType : String}
    {payload : EventPayload} {u : Unit}
    (h : Returns (addRunEvent org runId sequence eventType payload) db u db') :
    db.runEvents.lookup (runId, sequence) = none ∧
      db' = { db with
        runEvents := db.runEvents.insert (runId, sequence) ⟨org, eventType, payload⟩ } := by
  unfold addRunEvent at h
  obtain ⟨a, s, hget, h⟩ := h.bind
  obtain ⟨rfl, rfl⟩ := hget.get
  obtain ⟨u, s, hreq, h⟩ := h.bind
  obtain ⟨hfree, rfl⟩ := hreq.require
  exact ⟨hfree, h.set.symm⟩

theorem ensureTransition_returns {current target : RunState} {u : Unit}
    (h : Returns (ensureTransition current target : DbTx Unit) db u db') :
    Moves current target ∧ db = db' := h.require

theorem addOutboxMessage_returns {runId : Uuid} {run : Run} {eventType : String} {now : Instant}
    {u : Unit} (h : Returns (addOutboxMessage runId run eventType now) db u db') :
    db' = { db with
      nextId := db.nextId + 1
      outboxMessages := db.outboxMessages.insert db.nextId
        { organizationId := run.organizationId, runId, eventType
          payload := ⟨runId, run.kind, run.specSha256⟩
          state := .pending, createdAt := now, availableAt := now
          claimedAt := none, claimedBy := none, processedAt := none
          attempts := 0, lastErrorCode := none } } := by
  unfold addOutboxMessage at h
  obtain ⟨id, s, hid, h⟩ := h.bind
  obtain ⟨rfl, rfl⟩ := uuid4_returns hid
  exact h.modify.symm

theorem insertArtifact_returns {id : Uuid} {artifact : Artifact} {u : Unit}
    (h : Returns (insertArtifact id artifact) db u db') :
    0 < artifact.sizeBytes ∧
      db.artifacts.find (fun _ row => row.sameScopeDigest artifact) = none ∧
      db.artifacts.find (fun _ row => row.storageKey == artifact.storageKey) = none ∧
      db' = { db with artifacts := db.artifacts.insert id artifact } := by
  unfold insertArtifact at h
  obtain ⟨a, s, hget, h⟩ := h.bind
  obtain ⟨rfl, rfl⟩ := hget.get
  obtain ⟨u, s, hreq, h⟩ := h.bind
  obtain ⟨hsize, rfl⟩ := hreq.require
  obtain ⟨u, s, hreq, h⟩ := h.bind
  obtain ⟨hscope, rfl⟩ := hreq.require
  obtain ⟨u, s, hreq, h⟩ := h.bind
  obtain ⟨hkey, rfl⟩ := hreq.require
  exact ⟨hsize, hscope, hkey, h.set.symm⟩

/-- The event `AuditWriter.append` writes. -/
theorem append_returns {org : Uuid} {actor : AuditIdentity} {action : AuditAction}
    {rtype : AuditResourceType} {rid : Uuid} {requestId : Option String}
    {metadata : List (String × AuditValue)} {now : Instant} {u : Unit}
    (h : Returns (AuditWriter.append org actor action rtype rid requestId metadata now) db u db') :
    ∃ head, db.auditHeads.lookup org = some head ∧
      db.auditEvents.lookup (org, head + 1) = none ∧
      db' = { db with
        auditEvents := db.auditEvents.insert (org, head + 1)
          ⟨actor, action, rtype, rid, requestId, now, metadata⟩
        auditHeads := db.auditHeads.insert org (head + 1) } := by
  unfold AuditWriter.append at h
  obtain ⟨u, s, hreq, h⟩ := h.bind
  obtain ⟨-, rfl⟩ := hreq.require
  obtain ⟨u, s, hreq, h⟩ := h.bind
  obtain ⟨-, rfl⟩ := hreq.require
  obtain ⟨a, s, hget, h⟩ := h.bind
  obtain ⟨rfl, rfl⟩ := hget.get
  obtain ⟨head, s, hfound, h⟩ := h.bind
  obtain ⟨hhead, rfl⟩ := hfound.found
  obtain ⟨u, s, hreq, h⟩ := h.bind
  obtain ⟨hfree, rfl⟩ := hreq.require
  exact ⟨head, hhead, hfree, h.set.symm⟩

/-! ## Quota -/

namespace QuotaManager

theorem locked_returns {policy : Option QuotaPolicyValues} {org : Uuid}
    {r : QuotaPolicyValues × QuotaUsage} (h : Returns (locked policy org) db r db') :
    policy = some r.1 ∧ db.quotaUsages.lookup org = some r.2 ∧ db = db' := by
  unfold locked at h
  obtain ⟨a, s, hget, h⟩ := h.bind
  obtain ⟨rfl, rfl⟩ := hget.get
  obtain ⟨p, s, hfound, h⟩ := h.bind
  obtain ⟨hp, rfl⟩ := hfound.found
  obtain ⟨usage, s, hfound, h⟩ := h.bind
  obtain ⟨husage, rfl⟩ := hfound.found
  obtain ⟨rfl, rfl⟩ := h.pure
  exact ⟨hp, husage, rfl⟩

theorem setUsage_returns {org : Uuid} {usage : QuotaUsage} {u : Unit}
    (h : Returns (setUsage org usage) db u db') :
    db' = { db with quotaUsages := db.quotaUsages.insert org usage } := h.modify.symm

theorem setReservation_returns {id : Uuid} {r : QuotaReservation} {u : Unit}
    (h : Returns (setReservation id r) db u db') :
    db' = { db with quotaReservations := db.quotaReservations.insert id r } := h.modify.symm

/-- The reservation row a run's quota functions look at. -/
def ownReservation (db : Db) (org runId : Uuid) : Option (Uuid × QuotaReservation) :=
  db.quotaReservations.find fun _ reservation =>
    reservation.organizationId == org && reservation.runId == runId

theorem reservationOf_returns {org runId : Uuid} {r : Option (Uuid × QuotaReservation)}
    (h : Returns (reservationOf org runId) db r db') :
    r = ownReservation db org runId ∧ db = db' := by
  unfold reservationOf at h
  obtain ⟨a, s, hget, h⟩ := h.bind
  obtain ⟨rfl, rfl⟩ := hget.get
  exact ⟨h.pure.1.symm, h.pure.2⟩

theorem ownReservation_some {org runId rid : Uuid} {r : QuotaReservation}
    (h : ownReservation db org runId = some (rid, r)) :
    db.quotaReservations.lookup rid = some r ∧ r.organizationId = org ∧ r.runId = runId := by
  obtain ⟨hr, hp⟩ := Table.find_some h
  simp only [Bool.and_eq_true, beq_iff_eq] at hp
  exact ⟨hr, hp.1, hp.2⟩

theorem chargeJob_returns {policy : QuotaPolicyValues} {usage charged : QuotaUsage}
    {quotaClass : RunQuotaClass} (h : Returns (chargeJob policy usage quotaClass) db charged db') :
    policy.HasSlot usage quotaClass ∧ charged = usage.charge quotaClass ∧ db = db' := by
  cases quotaClass with
  | cpu =>
    obtain ⟨u, s, hreq, h⟩ := h.bind
    obtain ⟨hslot, rfl⟩ := hreq.require
    exact ⟨hslot, h.pure.1.symm, h.pure.2⟩
  | expensive =>
    obtain ⟨u, s, hreq, h⟩ := h.bind
    obtain ⟨hslot, rfl⟩ := hreq.require
    exact ⟨hslot, h.pure.1.symm, h.pure.2⟩

/-- A run without a reservation gets one. -/
theorem reserveRun_returns {policy : Option QuotaPolicyValues} {org runId : Uuid} {run : Run}
    {now : Instant} {b : Bool} (h : Returns (reserveRun policy org runId run now) db b db')
    (hnone : ownReservation db org runId = none) :
    ∃ p usage expiresAt, policy = some p ∧ db.quotaUsages.lookup org = some usage ∧
      Admits p run.kind run.spec ∧ p.HasSlot usage (runQuotaClass run.kind) ∧
      db' = { db with
        nextId := db.nextId + 1
        quotaReservations := db.quotaReservations.insert db.nextId
          { organizationId := org, runId, quotaClass := runQuotaClass run.kind, state := .active
            expiresAt, releasedAt := none }
        quotaUsages := db.quotaUsages.insert org (usage.charge (runQuotaClass run.kind)) } := by
  unfold reserveRun at h
  obtain ⟨r, s, hres, h⟩ := h.bind
  obtain ⟨rfl, rfl⟩ := reservationOf_returns hres
  rw [hnone] at h
  obtain ⟨⟨p, usage⟩, s, hlock, h⟩ := h.bind
  obtain ⟨hp, husage, rfl⟩ := locked_returns hlock
  simp only at h
  split at h
  · exact h.throw.elim
  · exact h.throw.elim
  · next deadline hvalid =>
    obtain ⟨charged, s, hcharge, h⟩ := h.bind
    obtain ⟨hslot, rfl, rfl⟩ := chargeJob_returns hcharge
    obtain ⟨id, s, hid, h⟩ := h.bind
    obtain ⟨rfl, rfl⟩ := uuid4_returns hid
    obtain ⟨u, s, hset, h⟩ := h.bind
    obtain rfl := setReservation_returns hset
    obtain ⟨u, s, hset, h⟩ := h.bind
    obtain rfl := setUsage_returns hset
    obtain ⟨-, rfl⟩ := h.pure
    exact ⟨p, usage, _, hp, husage, ⟨deadline, hvalid⟩, hslot, rfl⟩

/-- A renewal writes nothing but the expiry of an active reservation. -/
theorem renewRun_returns {org runId : Uuid} {run : Run} {now : Instant} {b : Bool}
    (h : Returns (renewRun org runId run now) db b db') :
    (b = false ∧ db = db') ∨ ∃ rid r expiresAt, db.quotaReservations.lookup rid = some r ∧
      db' = { db with
        quotaReservations := db.quotaReservations.insert rid { r with expiresAt } } := by
  unfold renewRun at h
  obtain ⟨r, s, hres, h⟩ := h.bind
  obtain ⟨rfl, rfl⟩ := reservationOf_returns hres
  split at h
  · exact .inl ⟨h.pure.1.symm, h.pure.2⟩
  · next rid r hown =>
    obtain ⟨-, h⟩ | ⟨-, h⟩ := h.ite
    · obtain ⟨a, s, hget, h⟩ := h.bind
      obtain ⟨rfl, rfl⟩ := hget.get
      obtain ⟨p, s, hfound, h⟩ := h.bind
      obtain ⟨-, rfl⟩ := hfound.found
      split at h
      · exact h.throw.elim
      · obtain ⟨u, s, hset, h⟩ := h.bind
        obtain rfl := setReservation_returns hset
        obtain ⟨-, rfl⟩ := h.pure
        exact .inr ⟨rid, r, _, (ownReservation_some hown).1, rfl⟩
    · exact .inl ⟨h.pure.1.symm, h.pure.2⟩

theorem releaseJob_returns {usage discharged : QuotaUsage} {quotaClass : RunQuotaClass}
    (h : Returns (releaseJob usage quotaClass) db discharged db') :
    discharged = usage.discharge quotaClass ∧ db = db' := by
  cases quotaClass with
  | cpu =>
    obtain ⟨u, s, hreq, h⟩ := h.bind
    obtain ⟨-, rfl⟩ := hreq.require
    exact ⟨h.pure.1.symm, h.pure.2⟩
  | expensive =>
    obtain ⟨u, s, hreq, h⟩ := h.bind
    obtain ⟨-, rfl⟩ := hreq.require
    exact ⟨h.pure.1.symm, h.pure.2⟩

/-- A release ends the active reservation of the run, if it has one. -/
theorem releaseRun_returns {org runId : Uuid} {ending : QuotaReservationState} {now : Instant}
    {b : Bool} (h : Returns (releaseRun org runId ending now) db b db') :
    (b = false ∧ db = db' ∧
      ∀ rid r, ownReservation db org runId = some (rid, r) → r.state ≠ .active) ∨
    (b = true ∧ ∃ rid r usage, ownReservation db org runId = some (rid, r) ∧ r.state = .active ∧
      db.quotaUsages.lookup org = some usage ∧
      db' = { db with
        quotaUsages := db.quotaUsages.insert org (usage.discharge r.quotaClass)
        quotaReservations := db.quotaReservations.insert rid
          { r with state := ending, releasedAt := some now } }) := by
  unfold releaseRun at h
  obtain ⟨r, s, hres, h⟩ := h.bind
  obtain ⟨rfl, rfl⟩ := reservationOf_returns hres
  split at h
  · next hnone =>
    obtain ⟨rfl, rfl⟩ := h.pure
    exact .inl ⟨rfl, rfl, fun rid r hr => by rw [hnone] at hr; cases hr⟩
  · next rid r hown =>
    obtain ⟨hactive, h⟩ | ⟨hinactive, h⟩ := h.ite
    · obtain ⟨a, s, hget, h⟩ := h.bind
      obtain ⟨rfl, rfl⟩ := hget.get
      obtain ⟨⟨p, usage⟩, s, hlock, h⟩ := h.bind
      obtain ⟨-, husage, rfl⟩ := locked_returns hlock
      obtain ⟨discharged, s, hrel, h⟩ := h.bind
      obtain ⟨rfl, rfl⟩ := releaseJob_returns hrel
      obtain ⟨u, s, hset, h⟩ := h.bind
      obtain rfl := setUsage_returns hset
      obtain ⟨u, s, hset, h⟩ := h.bind
      obtain rfl := setReservation_returns hset
      obtain ⟨rfl, rfl⟩ := h.pure
      exact .inr ⟨rfl, rid, r, usage, hown, hactive, husage, rfl⟩
    · obtain ⟨rfl, rfl⟩ := h.pure
      refine .inl ⟨rfl, rfl, fun rid' r' hr => ?_⟩
      rw [hown] at hr
      cases hr
      exact hinactive

theorem consumeArtifact_returns {policy : Option QuotaPolicyValues} {org : Uuid}
    {kind : ArtifactKind} {sizeBytes : Nat} {u : Unit}
    (h : Returns (consumeArtifact policy org kind sizeBytes) db u db') :
    ∃ p usage, policy = some p ∧ db.quotaUsages.lookup org = some usage ∧
      usage.artifactCount + 1 ≤ p.maxArtifactCount ∧
      usage.artifactBytes + sizeBytes ≤ p.maxArtifactBytes ∧
      db' = { db with quotaUsages := db.quotaUsages.insert org (usage.store sizeBytes) } := by
  unfold consumeArtifact at h
  obtain ⟨u, s, hreq, h⟩ := h.bind
  obtain ⟨-, rfl⟩ := hreq.require
  obtain ⟨⟨p, usage⟩, s, hlock, h⟩ := h.bind
  obtain ⟨hp, husage, rfl⟩ := locked_returns hlock
  obtain ⟨u, s, hreq, h⟩ := h.bind
  obtain ⟨-, rfl⟩ := hreq.require
  obtain ⟨u, s, hreq, h⟩ := h.bind
  obtain ⟨hcount, rfl⟩ := hreq.require
  obtain ⟨u, s, hreq, h⟩ := h.bind
  obtain ⟨hbytes, rfl⟩ := hreq.require
  exact ⟨p, usage, hp, husage, hcount, hbytes, setUsage_returns h⟩

theorem releaseArtifact_returns {org : Uuid} {sizeBytes : Nat} {u : Unit}
    (h : Returns (releaseArtifact org sizeBytes) db u db') :
    ∃ usage, db.quotaUsages.lookup org = some usage ∧
      db' = { db with quotaUsages := db.quotaUsages.insert org (usage.unstore sizeBytes) } := by
  unfold releaseArtifact at h
  obtain ⟨a, s, hget, h⟩ := h.bind
  obtain ⟨rfl, rfl⟩ := hget.get
  obtain ⟨⟨p, usage⟩, s, hlock, h⟩ := h.bind
  obtain ⟨-, husage, rfl⟩ := locked_returns hlock
  obtain ⟨u, s, hreq, h⟩ := h.bind
  obtain ⟨-, rfl⟩ := hreq.require
  exact ⟨usage, husage, setUsage_returns h⟩

theorem consumeCorpusSentences_returns {policy : Option QuotaPolicyValues} {org : Uuid}
    {sentenceCount : Nat} {operation : String} {u : Unit}
    (h : Returns (consumeCorpusSentences policy org sentenceCount operation) db u db') :
    ∃ p usage, policy = some p ∧ db.quotaUsages.lookup org = some usage ∧
      usage.corpusSentences + sentenceCount ≤ p.maxCorpusSentences ∧
      db' = { db with
        quotaUsages := db.quotaUsages.insert org
          { usage with corpusSentences := usage.corpusSentences + sentenceCount } } := by
  unfold consumeCorpusSentences at h
  obtain ⟨u, s, hreq, h⟩ := h.bind
  obtain ⟨-, rfl⟩ := hreq.require
  obtain ⟨⟨p, usage⟩, s, hlock, h⟩ := h.bind
  obtain ⟨hp, husage, rfl⟩ := locked_returns hlock
  obtain ⟨u, s, hreq, h⟩ := h.bind
  obtain ⟨hroom, rfl⟩ := hreq.require
  exact ⟨p, usage, hp, husage, hroom, setUsage_returns h⟩

theorem releaseCorpusSentences_returns {org : Uuid} {sentenceCount : Nat} {u : Unit}
    (h : Returns (releaseCorpusSentences org sentenceCount) db u db') :
    ∃ usage, db.quotaUsages.lookup org = some usage ∧
      db' = { db with
        quotaUsages := db.quotaUsages.insert org
          { usage with corpusSentences := usage.corpusSentences - sentenceCount } } := by
  unfold releaseCorpusSentences at h
  obtain ⟨u, s, hreq, h⟩ := h.bind
  obtain ⟨-, rfl⟩ := hreq.require
  obtain ⟨a, s, hget, h⟩ := h.bind
  obtain ⟨rfl, rfl⟩ := hget.get
  obtain ⟨⟨p, usage⟩, s, hlock, h⟩ := h.bind
  obtain ⟨-, husage, rfl⟩ := locked_returns hlock
  obtain ⟨u, s, hreq, h⟩ := h.bind
  obtain ⟨-, rfl⟩ := hreq.require
  exact ⟨usage, husage, setUsage_returns h⟩

end QuotaManager

end CorpusKit
