import CorpusKit.Persistence.Evidence

/-! # The database invariant

`Db.Inv` collects the invariants of the tables, and `Change.inv` keeps it, one
case for each kind of change. -/

namespace CorpusKit

/-! ## Artifacts -/

/-- The columns of an artifact that never change. -/
structure Artifact.SameAs (a' a : Artifact) : Prop where
  organizationId : a'.organizationId = a.organizationId
  projectId : a'.projectId = a.projectId
  runId : a'.runId = a.runId
  createdBy : a'.createdBy = a.createdBy
  scopeKey : a'.scopeKey = a.scopeKey
  kind : a'.kind = a.kind
  sha256 : a'.sha256 = a.sha256
  sizeBytes : a'.sizeBytes = a.sizeBytes
  storageKey : a'.storageKey = a.storageKey
  mediaType : a'.mediaType = a.mediaType
  filename : a'.filename = a.filename

theorem Artifact.SameAs.refl (a : Artifact) : a.SameAs a := by constructor <;> rfl

theorem Artifact.SameAs.trans {a b c : Artifact} (h : a.SameAs b) (h' : b.SameAs c) : a.SameAs c where
  organizationId := h.organizationId.trans h'.organizationId
  projectId := h.projectId.trans h'.projectId
  runId := h.runId.trans h'.runId
  createdBy := h.createdBy.trans h'.createdBy
  scopeKey := h.scopeKey.trans h'.scopeKey
  kind := h.kind.trans h'.kind
  sha256 := h.sha256.trans h'.sha256
  sizeBytes := h.sizeBytes.trans h'.sizeBytes
  storageKey := h.storageKey.trans h'.storageKey
  mediaType := h.mediaType.trans h'.mediaType
  filename := h.filename.trans h'.filename

/-- The identifying columns of two rows agree. -/
def Artifact.Collides (a b : Artifact) : Prop :=
  a.sameScopeDigest b = true ∨ a.storageKey = b.storageKey

theorem Artifact.SameAs.collides {a a' b b' : Artifact} (ha : a'.SameAs a) (hb : b'.SameAs b)
    (h : a'.Collides b') : a.Collides b := by
  unfold Collides sameScopeDigest at h ⊢
  rwa [ha.organizationId, ha.projectId, ha.scopeKey, ha.kind, ha.sha256, ha.storageKey,
    hb.organizationId, hb.projectId, hb.scopeKey, hb.kind, hb.sha256, hb.storageKey] at h

structure Stored (nextId : Uuid) (artifacts : Table Uuid Artifact) : Prop where
  fresh : Table.Below nextId artifacts
  unique : ∀ {id id' a a'}, artifacts.lookup id = some a → artifacts.lookup id' = some a' →
    a.Collides a' → id = id'
  sized : ∀ {id a}, artifacts.lookup id = some a → 0 < a.sizeBytes

variable {nextId : Uuid} {artifacts : Table Uuid Artifact}

theorem Stored.mono (h : Stored nextId artifacts) {n : Uuid} (hn : nextId ≤ n) : Stored n artifacts :=
  { h with fresh := h.fresh.mono hn }

theorem Artifact.Collides.symm {a b : Artifact} (h : a.Collides b) : b.Collides a := by
  unfold Collides sameScopeDigest at h ⊢
  simp only [Bool.and_eq_true, beq_iff_eq] at h ⊢
  obtain ⟨⟨⟨⟨h1, h2⟩, h3⟩, h4⟩, h5⟩ | h := h
  · exact .inl ⟨⟨⟨⟨h1.symm, h2.symm⟩, h3.symm⟩, h4.symm⟩, h5.symm⟩
  · exact .inr h.symm

theorem Stored.store (h : Stored nextId artifacts) {a : Artifact} (hsize : 0 < a.sizeBytes)
    (hscope : artifacts.find (fun _ row => row.sameScopeDigest a) = none)
    (hkey : artifacts.find (fun _ row => row.storageKey == a.storageKey) = none) :
    Stored (nextId + 1) (artifacts.insert nextId a) := by
  have hfree : ∀ {id b}, artifacts.lookup id = some b → ¬ b.Collides a := by
    rintro id b hb (hc | hc)
    · exact Bool.false_ne_true ((Table.find_none hscope hb).symm.trans hc)
    · have := Table.find_none hkey hb
      simp only [beq_eq_false_iff_ne] at this
      exact this hc
  refine ⟨h.fresh.draw _, fun hb hc hcol => ?_, fun hb => ?_⟩
  · obtain ⟨rfl, rfl⟩ | ⟨-, hold⟩ := Table.lookup_insert_cases hb <;>
      obtain ⟨rfl, rfl⟩ | ⟨-, hold'⟩ := Table.lookup_insert_cases hc
    · rfl
    · exact absurd hcol.symm (hfree hold')
    · exact absurd hcol (hfree hold)
    · exact h.unique hold hold' hcol
  · obtain ⟨-, rfl⟩ | ⟨-, hold⟩ := Table.lookup_insert_cases hb
    · exact hsize
    · exact h.sized hold

/-- Rows keep the columns that identify them. -/
theorem Stored.retain (h : Stored nextId artifacts) {artifacts' : Table Uuid Artifact}
    (hback : ∀ {id a'}, artifacts'.lookup id = some a' →
      ∃ a, artifacts.lookup id = some a ∧ a'.SameAs a) : Stored nextId artifacts' where
  fresh id a' ha' := by
    obtain ⟨a, ha, -⟩ := hback ha'
    exact h.fresh _ _ ha
  unique hb hc hcol := by
    obtain ⟨b, hb, hsb⟩ := hback hb
    obtain ⟨c, hc, hsc⟩ := hback hc
    exact h.unique hb hc (hsb.collides hsc hcol)
  sized hb := by
    obtain ⟨b, hb, hsb⟩ := hback hb
    exact hsb.sizeBytes ▸ h.sized hb

/-- A row keeps its identity in an update. -/
theorem retain_insert {id : Uuid} {a a' : Artifact} (ha : artifacts.lookup id = some a)
    (hsame : a'.SameAs a) {k : Uuid} {b' : Artifact}
    (hb : (artifacts.insert id a').lookup k = some b') :
    ∃ b, artifacts.lookup k = some b ∧ b'.SameAs b := by
  obtain ⟨rfl, rfl⟩ | ⟨-, hold⟩ := Table.lookup_insert_cases hb
  · exact ⟨a, ha, hsame⟩
  · exact ⟨b', hold, .refl b'⟩

theorem retain_map {f : Uuid → Artifact → Artifact} (hf : ∀ id a, (f id a).SameAs a) {k : Uuid}
    {b' : Artifact} (hb : (artifacts.mapRows f).lookup k = some b') :
    ∃ b, artifacts.lookup k = some b ∧ b'.SameAs b := by
  rw [Table.lookup_mapRows, Option.map_eq_some_iff] at hb
  obtain ⟨b, hb, rfl⟩ := hb
  exact ⟨b, hb, hf k b⟩

theorem retain_delete {lost : Uuid → Artifact → Bool} {k : Uuid} {b : Artifact}
    (hb : (artifacts.deleteWhere lost).lookup k = some b) :
    ∃ b', artifacts.lookup k = some b' ∧ b.SameAs b' :=
  ⟨b, (Table.lookup_deleteWhere.mp hb).1, .refl b⟩

/-- An adoption survives updates that keep identities and rows. -/
theorem Adoptions.same {runs : Table Uuid Run} {audits : Table (Uuid × Nat) AuditEvent}
    (h : Adoptions nextId runs artifacts audits) {artifacts' : Table Uuid Artifact}
    (hforward : ∀ {id a}, artifacts.lookup id = some a → ∃ a', artifacts'.lookup id = some a')
    (hback : ∀ {id a'}, artifacts'.lookup id = some a' →
      ∃ a, artifacts.lookup id = some a ∧ a'.SameAs a) :
    Adoptions nextId runs artifacts' audits :=
  h.retain hforward fun ha _ => by
    obtain ⟨a, ha, hs⟩ := hback ha
    exact ⟨a, ha, hs.organizationId, hs.projectId, hs.runId, hs.kind, hs.sha256, hs.sizeBytes⟩

/-! ## The whole database -/

structure Db.Inv (db : Db) : Prop where
  log : RunLog db.nextId db.runs db.runEvents
  reserved : Reserved db.nextId db.runs db.quotaReservations
  ledger : Ledger db.quotaUsages db.quotaReservations db.artifacts db.sentences
  stored : Stored db.nextId db.artifacts
  outbox : Outbox db.nextId db.runs db.outboxMessages
  submitted : Submitted db.nextId db.runs db.outboxMessages db.auditEvents
  adoptions : Adoptions db.nextId db.runs db.artifacts db.auditEvents
  projects : Table.Below db.nextId db.projects
  corpora : Table.Below db.nextId db.corpora
  versions : Table.Below db.nextId db.corpusVersions
  versioned : ∀ {v version}, db.corpusVersions.lookup v = some version →
    version.corpusId < db.nextId
  sentences : ∀ {v n s}, db.sentences.lookup (v, n) = some s → v < db.nextId
  replays : Table.Below db.nextId db.runReplays
  publications : Table.Below db.nextId db.datgIndexPublications
  published : ∀ {id id' p p'}, db.datgIndexPublications.lookup id = some p →
    db.datgIndexPublications.lookup id' = some p' → p.sameIndex p' = true → id = id'

/-- A database in which nothing has happened yet. -/
def Db.initial (memberships : List Membership) : Db := { memberships }

theorem Db.inv_initial (memberships : List Membership) : (Db.initial memberships).Inv where
  log := ⟨Table.below_empty _, fun h => (Table.not_mem_empty h).elim,
    fun h => (Table.not_mem_empty h).elim, fun h => (Table.not_mem_empty h).elim,
    fun h => (Table.not_mem_empty h).elim⟩
  reserved := ⟨Table.below_empty _, fun h => (Table.not_mem_empty h).elim,
    fun h => (Table.not_mem_empty h).elim⟩
  ledger _ := rfl
  stored := ⟨Table.below_empty _, fun h => (Table.not_mem_empty h).elim,
    fun h => (Table.not_mem_empty h).elim⟩
  outbox := ⟨Table.below_empty _, fun h => (Table.not_mem_empty h).elim,
    fun h => (Table.not_mem_empty h).elim⟩
  submitted := ⟨fun h => (Table.not_mem_empty h).elim, fun h => (Table.not_mem_empty h).elim,
    fun h => (Table.not_mem_empty h).elim⟩
  adoptions := ⟨fun ⟨_, _, h, _⟩ => (Table.not_mem_empty h).elim,
    fun ⟨_, _, h, _⟩ => (Table.not_mem_empty h).elim, fun h => (Table.not_mem_empty h.row).elim,
    fun h => (Table.not_mem_empty h).elim, fun h => (Table.not_mem_empty h).elim,
    fun h => (Table.not_mem_empty h).elim⟩
  projects := Table.below_empty _
  corpora := Table.below_empty _
  versions := Table.below_empty _
  versioned h := (Table.not_mem_empty h).elim
  sentences h := (Table.not_mem_empty h).elim
  replays := Table.below_empty _
  publications := Table.below_empty _
  published h := (Table.not_mem_empty h).elim

/-- Drawing identifiers is harmless. -/
theorem Db.Inv.advance {db : Db} (h : db.Inv) {n : Uuid} (hn : db.nextId ≤ n) :
    ({ db with nextId := n } : Db).Inv where
  log := h.log.mono hn
  reserved := h.reserved.mono hn
  ledger := h.ledger
  stored := h.stored.mono hn
  outbox := h.outbox.mono hn
  submitted := h.submitted.mono hn
  adoptions := h.adoptions.mono hn
  projects := h.projects.mono hn
  corpora := h.corpora.mono hn
  versions := h.versions.mono hn
  versioned hv := lt_of_lt_of_le (h.versioned hv) hn
  sentences hs := lt_of_lt_of_le (h.sentences hs) hn
  replays := h.replays.mono hn
  publications := h.publications.mono hn
  published := h.published

/-! ## Changes of a run -/

theorem AskedAt.stays {run : Run} {target : RunState} {askedAt : Option Instant}
    (h : AskedAt run target askedAt)
    (hold : run.cancellationRequestedAt ≠ none → run.state = .cancelling ∨ run.state = .cancelled)
    (hmove : Moves run.state target) (hcancel : run.state = .cancelling → target = .cancelled) :
    askedAt ≠ none → target = .cancelling ∨ target = .cancelled := by
  intro hne
  obtain rfl | h := h
  · obtain hs | hs := hold hne
    · exact .inr (hcancel hs)
    · rw [hs] at hmove
      cases hmove
  · exact h.2

theorem moves_cancelling {target : RunState} (h : Moves .cancelling target)
    (hlive : isTerminal target = false) : False := by
  cases target <;> revert h hlive <;> decide

/-- The state part of a run's journal step. -/
theorem runRecord_move {events : Table (Uuid × Nat) RunEvent} {runId : Uuid} {run : Run}
    {target : RunState} {event : RunEvent} (hmove : Moves run.state target)
    (hevent : event.payload.state = some target) :
    Journal.Step Moves noting (runRecord events runId run)
      ((runRecord events runId run).append target event.payload.state) := by
  rw [hevent]
  exact .move hmove

theorem QuotaReservation.Holds.moved {r : QuotaReservation} {run run' : Run} (h : r.Holds run)
    (horg : run'.organizationId = run.organizationId) (hkind : run'.kind = run.kind)
    (hend : isTerminal run'.state = isTerminal run.state) : r.Holds run' :=
  ⟨h.org.trans horg.symm, by rw [hkind]; exact h.quotaClass, by rw [hend]; exact h.active⟩

theorem QuotaReservation.Holds.ended {r r' : QuotaReservation} {run run' : Run} (h : r.Holds run)
    (hr : r'.organizationId = r.organizationId ∧ r'.quotaClass = r.quotaClass)
    (horg : run'.organizationId = run.organizationId) (hkind : run'.kind = run.kind)
    (hr' : r'.state ≠ .active) (hend : isTerminal run'.state = true) : r'.Holds run' :=
  ⟨hr.1.trans (h.org.trans horg.symm), by rw [hr.2, hkind]; exact h.quotaClass,
    ⟨fun ha => absurd ha hr', fun hl => absurd (hl.symm.trans hend) Bool.false_ne_true⟩⟩

variable {permit : Permit} {db : Db}

/-- One event of a run, with the row that goes with it: the tables that only
look at the run's identity follow. -/
theorem Db.Inv.touchRun (h : db.Inv) {runId : Uuid} {run : Run} (run' : Run)
    (hrun : db.runs.lookup runId = some run) (hlive : run.state ≠ .succeeded)
    (horg : run'.organizationId = run.organizationId) (hproject : run'.projectId = run.projectId) :
    Outbox db.nextId (db.runs.insert runId run') db.outboxMessages ∧
      Submitted db.nextId (db.runs.insert runId run') db.outboxMessages db.auditEvents ∧
      Adoptions db.nextId (db.runs.insert runId run') db.artifacts db.auditEvents :=
  ⟨h.outbox.touch run' hrun horg, h.submitted.touch run' hrun,
    h.adoptions.touch run' hrun hlive horg hproject⟩

theorem ne_succeeded_of_moves {s t : RunState} (h : Moves s t) : s ≠ .succeeded := by
  rintro rfl
  cases h

theorem Db.Inv.move (h : db.Inv) {runId : Uuid} {run : Run} {target : RunState} {summary code askedAt}
    {event : RunEvent} (hrun : db.runs.lookup runId = some run) (hmove : Moves run.state target)
    (hlive : isTerminal target = false) (hask : AskedAt run target askedAt)
    (horg : event.organizationId = run.organizationId) (hevent : event.payload.state = some target) :
    ({ db with
        runs := db.runs.insert runId (run.moved target summary code askedAt)
        runEvents := db.runEvents.insert (runId, run.eventSequence + 1) event } : Db).Inv := by
  obtain ⟨houtbox, hsubmitted, hadoptions⟩ :=
    h.touchRun (run.moved target summary code askedAt) hrun (ne_succeeded_of_moves hmove) rfl rfl
  refine { h with
    log := h.log.append _ hrun rfl (runRecord_move hmove hevent) rfl rfl horg
      (hask.stays (h.log.asked hrun) hmove fun hs => ?_)
    reserved := h.reserved.touch _ hrun fun r hr => hr.moved rfl rfl
      (hlive.trans (not_isTerminal_of_moves hmove).symm)
    outbox := houtbox
    submitted := hsubmitted
    adoptions := hadoptions }
  exact (moves_cancelling (hs ▸ hmove) hlive).elim

theorem Db.Inv.finish (h : db.Inv) {runId rid : Uuid} {run : Run} {target : RunState}
    {summary code askedAt} {event : RunEvent} {reservation : QuotaReservation} {usage : QuotaUsage}
    {ending : QuotaReservationState} {time : Instant} (hrun : db.runs.lookup runId = some run)
    (hmove : Moves run.state target) (hend : isTerminal target = true)
    (hcancel : run.state = .cancelling → target = .cancelled) (hask : AskedAt run target askedAt)
    (horg : event.organizationId = run.organizationId) (hevent : event.payload.state = some target)
    (hres : db.quotaReservations.lookup rid = some reservation)
    (hown : reservation.runId = runId ∧ reservation.organizationId = run.organizationId)
    (hactive : reservation.state = .active) (hending : ending ≠ .active)
    (husage : db.quotaUsages.lookup run.organizationId = some usage) :
    ({ db with
        runs := db.runs.insert runId (run.moved target summary code askedAt)
        runEvents := db.runEvents.insert (runId, run.eventSequence + 1) event
        quotaUsages := db.quotaUsages.insert run.organizationId
          (usage.discharge reservation.quotaClass)
        quotaReservations := db.quotaReservations.insert rid
          { reservation with state := ending, releasedAt := some time } } : Db).Inv := by
  obtain ⟨houtbox, hsubmitted, hadoptions⟩ :=
    h.touchRun (run.moved target summary code askedAt) hrun (ne_succeeded_of_moves hmove) rfl rfl
  let ended : QuotaReservation := { reservation with state := ending, releasedAt := some time }
  refine { h with
    log := h.log.append _ hrun rfl (runRecord_move hmove hevent) rfl rfl horg
      (hask.stays (h.log.asked hrun) hmove hcancel)
    reserved := h.reserved.finish _ ended hrun hres hown.1 hown.1 fun hr =>
      hr.ended ⟨rfl, rfl⟩ rfl rfl hending hend
    ledger := h.ledger.write ?_ fun o ho => tally_release_off ended hres rfl (hown.2 ▸ ho)
    outbox := houtbox
    submitted := hsubmitted
    adoptions := hadoptions }
  rw [h.ledger.usage husage, ← hown.2]
  exact tally_release ended hres hactive hending

theorem Db.Inv.adopt (h : db.Inv) {runId rid : Uuid} {run : Run} {artifact : Artifact}
    {event : RunEvent} {reservation : QuotaReservation} {usage : QuotaUsage}
    {time : Instant} {head : Nat} {adopted succeeded : AuditEvent} {mediaType schemaId : String}
    (hrun : db.runs.lookup runId = some run) (hstate : run.state = .running)
    (hask : run.cancellationRequestedAt = none)
    (horg : event.organizationId = run.organizationId)
    (hevent : event.payload.state = some .succeeded)
    (hres : db.quotaReservations.lookup rid = some reservation)
    (hown : reservation.runId = runId ∧ reservation.organizationId = run.organizationId)
    (hactive : reservation.state = .active)
    (hkept : artifact.state = .active) (hsize : 0 < artifact.sizeBytes)
    (hplace : artifact.organizationId = run.organizationId ∧
      artifact.projectId = run.projectId ∧ artifact.runId = some runId ∧
      artifact.kind = .runResult)
    (hscope : db.artifacts.find (fun _ row => row.sameScopeDigest artifact) = none)
    (hkey : db.artifacts.find (fun _ row => row.storageKey == artifact.storageKey) = none)
    (husage : db.quotaUsages.lookup run.organizationId = some usage)
    (hfirst : db.auditEvents.lookup (run.organizationId, head + 1) = none)
    (hsecond : db.auditEvents.lookup (run.organizationId, head + 2) = none)
    (hadopted : adopted.Adopts db.nextId) (hsucceeded : succeeded.EndsByAdoption runId) :
    ({ db with
        nextId := db.nextId + 1
        artifacts := db.artifacts.insert db.nextId artifact
        runs := db.runs.insert runId (run.moved .succeeded
          (some (.artifact db.nextId mediaType schemaId artifact.sha256 artifact.sizeBytes)) none
          run.cancellationRequestedAt)
        runEvents := db.runEvents.insert (runId, run.eventSequence + 1) event
        quotaUsages := db.quotaUsages.insert run.organizationId
          ((usage.store artifact.sizeBytes).discharge reservation.quotaClass)
        quotaReservations := db.quotaReservations.insert rid
          { reservation with state := .released, releasedAt := some time }
        auditEvents := (db.auditEvents.insert (run.organizationId, head + 1) adopted).insert
          (run.organizationId, head + 2) succeeded
        auditHeads := db.auditHeads.insert run.organizationId (head + 2) } : Db).Inv := by
  have hmove : Moves run.state .succeeded := by rw [hstate]; decide
  have hlive : run.state ≠ .succeeded := ne_succeeded_of_moves hmove
  have hnew : db.artifacts.lookup db.nextId = none := h.stored.fresh.none
  have hsecond' : (db.auditEvents.insert (run.organizationId, head + 1) adopted).lookup
      (run.organizationId, head + 2) = none := by
    rw [AList.lookup_insert_ne (by simp)]
    exact hsecond
  have hplain : ∀ {action : AuditAction}, action = .artifactAdopted ∨ action = .runSucceeded →
      submissionActions.contains action = false := by
    rintro action (rfl | rfl) <;> rfl
  have hn := Nat.le_succ db.nextId
  let run' := run.moved .succeeded
    (some (.artifact db.nextId mediaType schemaId artifact.sha256 artifact.sizeBytes)) none
    run.cancellationRequestedAt
  let released : QuotaReservation := { reservation with state := .released, releasedAt := some time }
  have hreleased : released.state ≠ .active := nofun
  refine { h.advance hn with
    log := (h.log.append run' hrun rfl (runRecord_move hmove hevent) rfl rfl horg
      fun hne => absurd hask hne).mono hn
    reserved := (h.reserved.finish run' released hrun hres hown.1 hown.1 fun hr =>
      hr.ended ⟨rfl, rfl⟩ rfl rfl hreleased rfl).mono hn
    ledger := h.ledger.write ?_ fun o ho => ?_
    stored := h.stored.store hsize hscope hkey
    outbox := (h.outbox.touch run' hrun rfl).mono hn
    submitted := (((h.submitted.touch run' hrun).audit hfirst (hplain (.inl hadopted.1))).audit hsecond'
      (hplain (.inr hsucceeded.1))).mono hn
    adoptions := h.adoptions.adopt h.log.fresh hnew hrun hlive hplace rfl rfl hfirst hsecond
      (by simp) hadopted hsucceeded }
  · have hstore : tally db.quotaReservations (db.artifacts.insert db.nextId artifact) db.sentences
        artifact.organizationId =
        (tally db.quotaReservations db.artifacts db.sentences artifact.organizationId).store
          artifact.sizeBytes := tally_store hnew hkept
    rw [h.ledger.usage husage, ← hplace.1, ← hstore, hplace.1, ← hown.2]
    exact tally_release released hres hactive hreleased
  · calc tally (db.quotaReservations.insert rid released) (db.artifacts.insert db.nextId artifact)
          db.sentences o
        = tally db.quotaReservations (db.artifacts.insert db.nextId artifact) db.sentences o :=
          tally_release_off released hres rfl (hown.2 ▸ ho)
      _ = tally db.quotaReservations db.artifacts db.sentences o :=
          tally_store_off hnew (hplace.1 ▸ ho)

theorem Db.Inv.note (h : db.Inv) {runId : Uuid} {run : Run} {event : RunEvent}
    (hrun : db.runs.lookup runId = some run) (hstate : run.state = .running)
    (horg : event.organizationId = run.organizationId) (hevent : event.payload.state = none) :
    ({ db with
        runs := db.runs.insert runId { run with eventSequence := run.eventSequence + 1 }
        runEvents := db.runEvents.insert (runId, run.eventSequence + 1) event } : Db).Inv := by
  have hlive : run.state ≠ .succeeded := by rw [hstate]; decide
  let noted : Run := { run with eventSequence := run.eventSequence + 1 }
  have hasked := h.log.asked hrun
  obtain ⟨houtbox, hsubmitted, hadoptions⟩ := h.touchRun noted hrun hlive rfl rfl
  exact { h with
    log := h.log.append noted hrun rfl (hevent ▸ .note hstate) rfl rfl horg hasked
    reserved := h.reserved.touch noted hrun fun r hr => hr.moved rfl rfl rfl
    outbox := houtbox
    submitted := hsubmitted
    adoptions := hadoptions }

theorem Db.Inv.settle (h : db.Inv) {runId : Uuid} {run : Run} {askedAt : Instant}
    (hrun : db.runs.lookup runId = some run) (hstate : run.state = .cancelled) :
    ({ db with
        runs := db.runs.insert runId { run with
          cancellationRequestedAt := some askedAt, resultSummary := none
          failureCode := none } } : Db).Inv := by
  have hlive : run.state ≠ .succeeded := by rw [hstate]; decide
  obtain ⟨houtbox, hsubmitted, hadoptions⟩ := h.touchRun { run with
    cancellationRequestedAt := some askedAt, resultSummary := none, failureCode := none }
    hrun hlive rfl rfl
  exact { h with
    log := h.log.touch _ hrun rfl rfl rfl rfl fun _ => .inr hstate
    reserved := h.reserved.touch _ hrun fun r hr => hr.moved rfl rfl rfl
    outbox := houtbox
    submitted := hsubmitted
    adoptions := hadoptions }

theorem Db.Inv.submit (h : db.Inv) {run : Run} {usage : QuotaUsage} {expiresAt now : Instant}
    {event : RunEvent} {head : Nat} {audit : AuditEvent}
    (hkey : db.idempotentRun run.organizationId run.idempotencyKey = none)
    (hstate : run.state = .queued) (hseq : run.eventSequence = 1)
    (hasked : run.cancellationRequestedAt = none)
    (husage : db.quotaUsages.lookup run.organizationId = some usage)
    (horg : event.organizationId = run.organizationId)
    (hfree : db.auditEvents.lookup (run.organizationId, head + 1) = none)
    (haudit : audit.Submits db.nextId) :
    ({ db with
        nextId := db.nextId + 3
        runs := db.runs.insert db.nextId run
        quotaUsages := db.quotaUsages.insert run.organizationId
          (usage.charge (runQuotaClass run.kind))
        quotaReservations := db.quotaReservations.insert (db.nextId + 1)
          { organizationId := run.organizationId, runId := db.nextId
            quotaClass := runQuotaClass run.kind, state := .active, expiresAt, releasedAt := none }
        runEvents := db.runEvents.insert (db.nextId, 1) event
        outboxMessages := db.outboxMessages.insert (db.nextId + 2)
          { organizationId := run.organizationId, runId := db.nextId, eventType := "run.dispatch"
            payload := ⟨db.nextId, run.kind, run.specSha256⟩, state := .pending, createdAt := now
            availableAt := now, claimedAt := none, claimedBy := none, processedAt := none
            attempts := 0, lastErrorCode := none }
        auditEvents := db.auditEvents.insert (run.organizationId, head + 1) audit
        auditHeads := db.auditHeads.insert run.organizationId (head + 1) } : Db).Inv := by
  have hn : db.nextId ≤ db.nextId + 3 := Nat.le_add_right _ _
  have hn1 : db.nextId + 1 ≤ db.nextId + 3 := Nat.add_le_add_left (by decide) _
  have hn2 : db.nextId + 2 < db.nextId + 3 := Nat.lt_succ_self _
  have hfresh : db.quotaReservations.lookup (db.nextId + 1) = none :=
    (h.reserved.fresh.mono (Nat.le_succ _)).none
  have hmessages : ∀ {k m}, db.outboxMessages.lookup k = some m → m.runId ≠ db.nextId := by
    intro k m hm he
    obtain ⟨owner, howner, -⟩ := h.outbox.owned hm
    exact Nat.lt_irrefl _ (he ▸ h.log.fresh _ _ howner)
  have hmid : db.outboxMessages.lookup (db.nextId + 2) = none :=
    (h.outbox.fresh.mono (Nat.le_add_right db.nextId 2)).none
  have hunused : ∀ {id other}, db.runs.lookup id = some other →
      other.organizationId = run.organizationId → other.idempotencyKey ≠ run.idempotencyKey := by
    intro id other hother ho hk
    have := Table.find_none hkey hother
    simp [ho, hk] at this
  refine { h.advance hn with
    log := (h.log.enter hstate hseq hasked horg hunused).mono hn1
    reserved := (h.reserved.enter h.log.fresh rfl ⟨rfl, rfl, by simp [hstate]⟩).mono hn2.le
    ledger := h.ledger.write ?_ fun o ho => tally_reserve_off hfresh ho
    outbox := (((h.outbox.enter (Nat.le_refl _) h.log.fresh.none).mono hn).write
      hn2 (AList.lookup_insert _) rfl ⟨by simp, by simp⟩)
    submitted := h.submitted.enter hmessages (Nat.lt_add_of_pos_right (by decide)) hmid hfree ⟨rfl, rfl⟩ haudit
    adoptions := (h.adoptions.enter.mono hn).audit hfree (AuditEvent.submits_adoption haudit.2) }
  rw [h.ledger.usage husage]
  exact tally_reserve hfresh rfl

/-! ## Changes of artifacts, messages and projects -/

theorem Db.Inv.store (h : db.Inv) {artifact : Artifact} {usage : QuotaUsage}
    (hactive : artifact.state = .active) (hsize : 0 < artifact.sizeBytes)
    (hscope : db.artifacts.find (fun _ row => row.sameScopeDigest artifact) = none)
    (hkey : db.artifacts.find (fun _ row => row.storageKey == artifact.storageKey) = none)
    (husage : db.quotaUsages.lookup artifact.organizationId = some usage) :
    ({ db with
        nextId := db.nextId + 1
        artifacts := db.artifacts.insert db.nextId artifact
        quotaUsages := db.quotaUsages.insert artifact.organizationId
          (usage.store artifact.sizeBytes) } : Db).Inv := by
  have hnew : db.artifacts.lookup db.nextId = none := h.stored.fresh.none
  have hn := Nat.le_succ db.nextId
  refine { h.advance hn with
    ledger := h.ledger.write ?_ fun o ho => tally_store_off hnew ho
    stored := h.stored.store hsize hscope hkey
    adoptions := (h.adoptions.retain (fun {id a} ha => ?_) fun {id a} ha hid => ?_).mono hn }
  · rw [h.ledger.usage husage]
    exact tally_store hnew hactive
  · have hne : id ≠ db.nextId := by rintro rfl; rw [hnew] at ha; cases ha
    exact ⟨a, by rw [AList.lookup_insert_ne hne]; exact ha⟩
  · rw [AList.lookup_insert_ne (Nat.ne_of_lt hid)] at ha
    exact ⟨a, ha, rfl, rfl, rfl, rfl, rfl, rfl⟩

/-- An artifact changes its state. -/
theorem Db.Inv.retire (h : db.Inv) {id : Uuid} {artifact artifact' : Artifact}
    {usages : Table Uuid QuotaUsage} (hrow : db.artifacts.lookup id = some artifact)
    (hsame : artifact'.SameAs artifact)
    (hledger : Ledger usages db.quotaReservations (db.artifacts.insert id artifact') db.sentences) :
    ({ db with artifacts := db.artifacts.insert id artifact', quotaUsages := usages } : Db).Inv := by
  refine { h with
    ledger := hledger
    stored := h.stored.retain (retain_insert hrow hsame)
    adoptions := h.adoptions.same (fun {k a} ha => ?_) (retain_insert hrow hsame) }
  by_cases hk : k = id
  · exact ⟨artifact', by rw [hk, AList.lookup_insert]⟩
  · exact ⟨a, by rw [AList.lookup_insert_ne hk]; exact ha⟩

theorem Db.Inv.tombstone (h : db.Inv) {id : Uuid} {artifact : Artifact} {time : Instant}
    (hrow : db.artifacts.lookup id = some artifact) (hactive : artifact.state = .active) :
    ({ db with
        artifacts := db.artifacts.insert id
          { artifact with state := .tombstoned, tombstonedAt := some time } } : Db).Inv :=
  h.retire hrow (by constructor <;> rfl) (h.ledger.frame fun o => tally_artifact_same hrow (by
    simp [Artifact.weight, Artifact.bytes, Artifact.counts, hactive]))

theorem Db.Inv.discard (h : db.Inv) {id : Uuid} {artifact : Artifact} {time : Instant}
    {usage : QuotaUsage} (hrow : db.artifacts.lookup id = some artifact)
    (hdead : artifact.state = .tombstoned)
    (husage : db.quotaUsages.lookup artifact.organizationId = some usage) :
    ({ db with
        artifacts := db.artifacts.insert id { artifact with state := .deleted, deletedAt := some time }
        quotaUsages := db.quotaUsages.insert artifact.organizationId
          (usage.unstore artifact.sizeBytes) } : Db).Inv := by
  refine h.retire hrow (by constructor <;> rfl) (h.ledger.write ?_ fun o ho => ?_)
  · rw [h.ledger.usage husage]
    exact tally_unstore hrow (by simp [hdead]) rfl
  · have hzero := Artifact.weight_elsewhere ho
    have hzero' := Artifact.weight_elsewhere
      (a := { artifact with state := .deleted, deletedAt := some time }) ho
    exact tally_artifact_same hrow ⟨hzero'.1.trans hzero.1.symm, hzero'.2.trans hzero.2.symm⟩

theorem Db.Inv.message (h : db.Inv) {id : Uuid} {message message' : OutboxMessage}
    (hrow : db.outboxMessages.lookup id = some message) (hrun : message'.runId = message.runId)
    (horg : message'.organizationId = message.organizationId)
    (htype : message'.eventType = message.eventType) (hcoherent : message'.Coherent) :
    ({ db with outboxMessages := db.outboxMessages.insert id message' } : Db).Inv :=
  { h with
    outbox := h.outbox.update hrow hrun horg hcoherent
    submitted := h.submitted.update hrow hrun htype }

theorem claimedMessage_coherent {message : OutboxMessage} {workerId : String} {now expired : Instant}
    (h : TransactionalOutbox.isClaimable expired message = true) :
    (TransactionalOutbox.claimedMessage message workerId now).Coherent := by
  unfold TransactionalOutbox.isClaimable at h
  rw [Bool.and_eq_true, beq_iff_eq] at h
  exact ⟨by simp [TransactionalOutbox.claimedMessage, h.1], fun _ =>
    ⟨Option.some_ne_none _, Option.some_ne_none _⟩⟩

theorem Db.Inv.intent (h : db.Inv) {run : Run} {message : OutboxMessage}
    (hrun : db.runs.lookup message.runId = some run)
    (horg : message.organizationId = run.organizationId) (hpending : message.state = .pending)
    (hnew : message.processedAt = none) (htype : message.eventType ≠ "run.dispatch") :
    ({ db with
        nextId := db.nextId + 1
        outboxMessages := db.outboxMessages.insert db.nextId message } : Db).Inv :=
  { h.advance (Nat.le_succ _) with
    outbox := (h.outbox.mono (Nat.le_succ _)).write (Nat.lt_succ_self _) hrun horg
      ⟨by simp [hpending, hnew], by simp [hpending]⟩
    submitted := (h.submitted.message h.outbox.fresh.none htype).mono (Nat.le_succ _) }

theorem Db.Inv.version (h : db.Inv) {version : CorpusVersion} {texts : List String}
    {usage : QuotaUsage} (husage : db.quotaUsages.lookup version.organizationId = some usage)
    (hcorpus : version.corpusId < db.nextId) :
    ({ db with
        nextId := db.nextId + 1
        corpusVersions := db.corpusVersions.insert db.nextId version
        sentences := ProjectWorkspace.insertSentences version.organizationId db.nextId 0 texts
          db.sentences
        quotaUsages := db.quotaUsages.insert version.organizationId
          { usage with corpusSentences := usage.corpusSentences + texts.length } } : Db).Inv := by
  have hnew : ∀ n, db.sentences.lookup (db.nextId, n) = none := by
    intro n
    cases hs : db.sentences.lookup (db.nextId, n) with
    | none => rfl
    | some s => exact absurd (h.sentences hs) (Nat.lt_irrefl _)
  refine { h.advance (Nat.le_succ _) with
    versions := h.versions.draw _
    versioned := fun {v other} hv => ?_
    ledger := h.ledger.write ?_ fun o ho => tally_insertSentences_off hnew ho
    sentences := fun {v n s} hs => ?_ }
  · rw [h.ledger.usage husage]
    exact tally_insertSentences hnew
  · obtain ⟨-, rfl⟩ | ⟨-, hold⟩ := Table.lookup_insert_cases hv
    · exact hcorpus.trans (Nat.lt_succ_self _)
    · exact (h.versioned hold).trans (Nat.lt_succ_self _)
  · obtain ⟨rfl, -⟩ | hold := mem_insertSentences hs
    · exact Nat.lt_succ_self _
    · exact (h.sentences hold).trans (Nat.lt_succ_self _)

theorem scheduleArtifact_same (org projectId : Uuid) (requestedAt retentionUntil : Instant)
    (a : Artifact) :
    (ProjectDeletion.scheduleArtifact org projectId requestedAt retentionUntil a).SameAs a := by
  unfold ProjectDeletion.scheduleArtifact
  split
  · constructor <;> rfl
  · exact .refl a

theorem scheduleArtifact_weight (org projectId : Uuid) (requestedAt retentionUntil : Instant)
    (a : Artifact) (o : Uuid) :
    (ProjectDeletion.scheduleArtifact org projectId requestedAt retentionUntil a).weight o = a.weight o ∧
      (ProjectDeletion.scheduleArtifact org projectId requestedAt retentionUntil a).bytes o =
        a.bytes o := by
  unfold ProjectDeletion.scheduleArtifact
  split
  · next hc =>
    simp only [Bool.and_eq_true, bne_iff_ne, ne_eq] at hc
    simp [Artifact.weight, Artifact.bytes, Artifact.counts, hc.2]
  · exact ⟨rfl, rfl⟩

theorem Db.Inv.schedule (h : db.Inv) {org projectId : Uuid} {project : Project}
    {requestedAt retentionUntil : Instant} {lifecycle : ProjectLifecycle}
    (hproject : db.projects.lookup projectId = some project) :
    ({ db with
        artifacts := db.artifacts.mapRows fun _ artifact =>
          ProjectDeletion.scheduleArtifact org projectId requestedAt retentionUntil artifact
        projects := db.projects.insert projectId { project with lifecycle } } : Db).Inv :=
  { h with
    ledger := h.ledger.frame fun o => tally_artifacts_map fun _ a => scheduleArtifact_weight ..
    stored := h.stored.retain (retain_map fun _ a => scheduleArtifact_same ..)
    adoptions := h.adoptions.same
      (fun {id a} ha => ⟨_, by rw [Table.lookup_mapRows, ha]; rfl⟩)
      (retain_map fun _ a => scheduleArtifact_same ..)
    projects := h.projects.insert (h.projects _ _ hproject) _ }

/-! ## Erasing a project -/

open ProjectDeletion

variable {org projectId : Uuid}

/-- The rows of a run go exactly with the run. -/
theorem ofProjectRun_eq {runId : Uuid} {run : Run} (hrun : db.runs.lookup runId = some run) {o : Uuid}
    (ho : o = run.organizationId) :
    ofProjectRun db org projectId o runId = isProjectRun org projectId run := by
  unfold ofProjectRun isProjectRun
  rw [hrun, Option.any_some, ho]
  cases run.organizationId == org <;> rfl

/-- No reservation of a quiescent project is active. -/
theorem quiescent_inactive (h : quiescent db org projectId = true) {rid : Uuid}
    {r : QuotaReservation} (hr : db.quotaReservations.lookup rid = some r)
    (hown : ofProjectRun db org projectId r.organizationId r.runId = true) : r.state ≠ .active := by
  intro hactive
  unfold quiescent at h
  rw [Bool.and_eq_true, List.all_eq_true, List.all_eq_true] at h
  have hquiet := h.2 (rid, r) (Table.mem_rows.mpr hr)
  rw [ofProjectRun, Bool.and_eq_true] at hown
  simp only [hactive, hown.1, hown.2, beq_self_eq_true, Bool.and_self, Bool.not_true] at hquiet
  cases hquiet

/-- What erasure leaves of the rows quota usage counts. -/
theorem tally_eraseRows (hready : databasePreconditions db org projectId = true) (o : Uuid) :
    tally (eraseRows db org projectId).quotaReservations (eraseRows db org projectId).artifacts
        (eraseRows db org projectId).sentences o =
      if o = org then { tally db.quotaReservations db.artifacts db.sentences org with
        corpusSentences := (tally db.quotaReservations db.artifacts db.sentences org).corpusSentences -
          corpusSentenceCount db org projectId }
      else tally db.quotaReservations db.artifacts db.sentences o := by
  have hquiet : quiescent db org projectId = true := by
    unfold databasePreconditions at hready
    rw [Bool.and_eq_true] at hready
    exact hready.2
  have horg : ∀ {k : Uuid × Nat} {s : Sentence},
      (s.organizationId == org && inProject db org projectId k.1) = true → s.organizationId = org := by
    intro k s hs
    rw [Bool.and_eq_true, beq_iff_eq] at hs
    exact hs.1
  calc tally (eraseRows db org projectId).quotaReservations (eraseRows db org projectId).artifacts
        (eraseRows db org projectId).sentences o
      = tally db.quotaReservations (eraseRows db org projectId).artifacts
          (eraseRows db org projectId).sentences o :=
        tally_reservations_erase fun hr hl => quiescent_inactive hquiet hr hl
    _ = tally db.quotaReservations db.artifacts (eraseRows db org projectId).sentences o :=
        tally_artifacts_erase fun _ hl => by
          rw [Bool.and_eq_true, beq_iff_eq] at hl
          exact hl.2
    _ = _ := by
        split
        · next ho =>
          subst ho
          exact tally_sentences_erase horg
        · next ho => exact tally_sentences_erase_off horg ho

theorem Db.Inv.eraseLedger (h : db.Inv) (hready : databasePreconditions db org projectId = true)
    {usages : Table Uuid QuotaUsage}
    (husages : (corpusSentenceCount db org projectId = 0 ∧ usages = db.quotaUsages) ∨
      ∃ usage, db.quotaUsages.lookup org = some usage ∧
        usages = db.quotaUsages.insert org { usage with
          corpusSentences := usage.corpusSentences - corpusSentenceCount db org projectId }) :
    Ledger usages (eraseRows db org projectId).quotaReservations
      (eraseRows db org projectId).artifacts (eraseRows db org projectId).sentences := by
  obtain ⟨hzero, rfl⟩ | ⟨usage, husage, rfl⟩ := husages
  · refine h.ledger.frame fun o => ?_
    rw [tally_eraseRows hready, hzero, Nat.sub_zero]
    split
    · next ho => rw [ho]
    · rfl
  · refine h.ledger.write ?_ fun o ho => ?_
    · rw [tally_eraseRows hready, if_pos rfl, h.ledger.usage husage]
    · rw [tally_eraseRows hready, if_neg ho]

theorem Db.Inv.erase (h : db.Inv) (hready : databasePreconditions db org projectId = true)
    {usages : Table Uuid QuotaUsage}
    (husages : (corpusSentenceCount db org projectId = 0 ∧ usages = db.quotaUsages) ∨
      ∃ usage, db.quotaUsages.lookup org = some usage ∧
        usages = db.quotaUsages.insert org { usage with
          corpusSentences := usage.corpusSentences - corpusSentenceCount db org projectId }) :
    ({ eraseRows db org projectId with
      quotaUsages := usages, projects := db.projects.erase projectId } : Db).Inv where
  log := h.log.erase (isProjectRun org projectId)
    (fun key row => ofProjectRun db org projectId row.organizationId key.1) fun {id n event run} he hrun => by
    obtain ⟨owner, howner, ho⟩ := h.log.owned he
    rw [hrun] at howner
    cases howner
    exact ofProjectRun_eq hrun ho
  reserved := h.reserved.erase (isProjectRun org projectId)
    (fun _ row => ofProjectRun db org projectId row.organizationId row.runId) fun {rid r run} hr hrun => by
    obtain ⟨owner, howner, hh⟩ := h.reserved.owned hr
    rw [hrun] at howner
    cases howner
    exact ofProjectRun_eq hrun hh.org
  ledger := h.eraseLedger hready husages
  stored := h.stored.retain retain_delete
  outbox := h.outbox.erase (isProjectRun org projectId)
    (fun _ row => ofProjectRun db org projectId row.organizationId row.runId) fun {id m run} hm hrun => by
    obtain ⟨owner, howner, ho⟩ := h.outbox.owned hm
    rw [hrun] at howner
    cases howner
    exact ofProjectRun_eq hrun ho
  submitted := h.submitted.erase (isProjectRun org projectId)
    (fun _ row => ofProjectRun db org projectId row.organizationId row.runId) fun {id m run} hm hrun => by
    obtain ⟨owner, howner, ho⟩ := h.outbox.owned hm
    rw [hrun] at howner
    cases howner
    exact ofProjectRun_eq hrun ho
  adoptions := h.adoptions.erase (isProjectRun org projectId)
    (fun _ row => isProjectArtifact org projectId row && row.state == .deleted) fun {runId id run a} hrun hkept ha => by
    obtain ⟨ho, hp⟩ := (h.adoptions.place ha).2 run hrun
    have hsame : isProjectArtifact org projectId a = isProjectRun org projectId run := by
      unfold isProjectArtifact isProjectRun
      rw [ho, hp]
    rw [hsame, hkept, Bool.false_and]
  projects := h.projects.erase
  corpora := h.corpora.deleteWhere _
  versions := h.versions.deleteWhere _
  versioned hv := h.versioned (Table.lookup_deleteWhere.mp hv).1
  sentences hs := h.sentences (Table.lookup_deleteWhere.mp hs).1
  replays := h.replays.deleteWhere _
  publications := h.publications.deleteWhere _
  published hp hp' :=
    h.published (Table.lookup_deleteWhere.mp hp).1 (Table.lookup_deleteWhere.mp hp').1

/-- A zero usage row may be created where there is none. -/
theorem Db.Inv.provision (h : db.Inv) (org : Uuid) :
    Ledger (match db.quotaUsages.lookup org with
      | some _ => db.quotaUsages
      | none => db.quotaUsages.insert org {}) db.quotaReservations db.artifacts db.sentences := by
  split
  · exact h.ledger
  · next hnone =>
    refine h.ledger.write ?_ fun _ _ => rfl
    rw [← h.ledger org]
    unfold usageOf
    rw [hnone]
    rfl

theorem DatgIndexPublication.sameIndex_symm {a b : DatgIndexPublication}
    (h : a.sameIndex b = true) : b.sameIndex a = true := by
  simp only [sameIndex, Bool.and_eq_true, beq_iff_eq] at h ⊢
  exact ⟨⟨h.1.1.symm, h.1.2.symm⟩, h.2.symm⟩

/-- A publication enters under a cache key of its own. -/
theorem Db.Inv.publish (h : db.Inv) {publication : DatgIndexPublication}
    (hfree : db.datgIndexPublications.find (fun _ row => row.sameIndex publication) = none)
    {n id id' : Uuid} {p p' : DatgIndexPublication}
    (hp : (db.datgIndexPublications.insert n publication).lookup id = some p)
    (hp' : (db.datgIndexPublications.insert n publication).lookup id' = some p')
    (hsame : p.sameIndex p' = true) : id = id' := by
  obtain ⟨rfl, rfl⟩ | ⟨-, hold⟩ := Table.lookup_insert_cases hp <;>
    obtain ⟨rfl, rfl⟩ | ⟨-, hold'⟩ := Table.lookup_insert_cases hp'
  · rfl
  · have := Table.find_none hfree hold'
    rw [DatgIndexPublication.sameIndex_symm hsame] at this
    cases this
  · have := Table.find_none hfree hold
    rw [hsame] at this
    cases this
  · exact h.published hold hold' hsame

/-! ## Every change keeps the invariant -/

theorem Change.inv {db db' : Db} (hc : Change permit db db') (h : db.Inv) : db'.Inv := by
  cases hc with
  | evidence event hhead hfree hplain =>
    exact { h with
      submitted := h.submitted.audit hfree (AuditEvent.isPlain_submits hplain)
      adoptions := h.adoptions.audit hfree (AuditEvent.isPlain_adoption hplain) }
  | id => exact h.advance (Nat.le_succ _)
  | move hrun hmove hlive hask hfree horg hevent => exact h.move hrun hmove hlive hask horg hevent
  | finish hrun hmove hend hcancel hask hfree horg hevent hres hown hactive hending husage =>
    exact h.finish hrun hmove hend hcancel hask horg hevent hres hown hactive hending husage
  | adopt time mediaType schemaId hrun hstate hask hfree horg hevent hres hown hactive hkept hsize hplace
      hkeyed hscope hkey
      hpolicy husage hcount hbytes hhead hfirst hsecond hadopted hsucceeded =>
    exact h.adopt hrun hstate hask horg hevent hres hown hactive hkept hsize hplace hscope hkey
      husage hfirst hsecond hadopted hsucceeded
  | note hrun hstate hfree horg hevent => exact h.note hrun hstate horg hevent
  | settle hrun hstate => exact h.settle hrun hstate
  | @renew rid reservation expiresAt hres =>
    let renewed : QuotaReservation := { reservation with expiresAt }
    exact { h with
      reserved := h.reserved.renew renewed hres rfl fun run hr => ⟨hr.org, hr.quotaClass, hr.active⟩
      ledger := h.ledger.frame fun o => tally_reservation_same hres fun _ => rfl }
  | submit hpermit hproject hkey hstate hseq hasked hsummary hpolicy husage hslot hadmits horg hhead
      hfree
      haudit =>
    exact h.submit hkey hstate hseq hasked husage horg hfree haudit
  | lineage replay hid hfree => exact { h with replays := h.replays.insert hid _ }
  | observe manifest hreplay =>
    exact { h with replays := h.replays.insert (h.replays _ _ hreplay) _ }
  | record facts hfree => exact { h with log := h.log }
  | manifest artifactId sha256 hfacts => exact { h with log := h.log }
  | store artifact hproject hkind hactive hsize hkeyed hscope hkey hpolicy husage hcount hbytes =>
    exact h.store hactive hsize hscope hkey husage
  | tombstone hpermit hrow hactive => exact h.tombstone hrow hactive
  | discard hpermit hrow hdead husage => exact h.discard hrow hdead husage
  | publish publication hfree =>
    exact { h.advance (Nat.le_succ _) with
      publications := h.publications.draw _
      published := h.publish hfree }
  | intent message hrun horg hpending hnew htype => exact h.intent hrun horg hpending hnew htype
  | claim workerId now expired hrow hclaim =>
    exact h.message hrow rfl rfl rfl (claimedMessage_coherent hclaim)
  | acknowledge now hrow hclaimed => exact h.message hrow rfl rfl rfl ⟨by simp, nofun⟩
  | release availableAt hrow hclaimed =>
    have hunpublished := (h.outbox.coherent hrow).published
    exact h.message hrow rfl rfl rfl ⟨by simpa [hclaimed] using hunpublished, nofun⟩
  | project project hactive => exact { h.advance (Nat.le_succ _) with projects := h.projects.draw _ }
  | corpus corpus hproject => exact { h.advance (Nat.le_succ _) with corpora := h.corpora.draw _ }
  | version version texts hcorpus horg hproject hnext hcontent hcount hpolicy husage hroom =>
    exact h.version husage (h.corpora _ _ hcorpus)
  | schedule hpermit hproject horg hactive hquiet => exact h.schedule hproject
  | erase hpermit hproject horg hdead hready husages => exact h.erase hready husages
  | policy hreplaces hfree hpolicy husage hbounds hruns => exact { h with log := h.log }
  | provision org => exact { h with ledger := h.provision org }

/-- Every sequence of changes keeps the invariant. -/
theorem Changes.inv {db db' : Db} (hc : Changes permit db db') (h : db.Inv) : db'.Inv := by
  induction hc with
  | refl => exact h
  | tail _ hstep ih => exact hstep.inv ih

end CorpusKit
