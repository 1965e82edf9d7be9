import CorpusKit.Library.Confinement
import CorpusKit.Refinement.Statements

/-! # Whose rows a statement writes

A database is within an organization's part of another if the rows of everybody
else are the same. The statements of the services write rows of the organization
they are given, under identifiers that are new or hold a row of it already. -/

namespace CorpusKit

open Transaction

/-- The rows of every other organization are the same. -/
structure Db.Within (org : Uuid) (db db' : Db) : Prop where
  memberships : db'.memberships = db.memberships
  projects : Table.Outside (fun _ row => row.organizationId = org) db.projects db'.projects
  corpora : Table.Outside (fun _ row => row.organizationId = org) db.corpora db'.corpora
  versions : Table.Outside (fun _ row => row.organizationId = org) db.corpusVersions
    db'.corpusVersions
  sentences : Table.Outside (fun _ row => row.organizationId = org) db.sentences db'.sentences
  runs : Table.Outside (fun _ row => row.organizationId = org) db.runs db'.runs
  events : Table.Outside (fun _ row => row.organizationId = org) db.runEvents db'.runEvents
  messages : Table.Outside (fun _ row => row.organizationId = org) db.outboxMessages
    db'.outboxMessages
  artifacts : Table.Outside (fun _ row => row.organizationId = org) db.artifacts db'.artifacts
  publications : Table.Outside (fun _ row => row.organizationId = org) db.datgIndexPublications
    db'.datgIndexPublications
  facts : Table.Outside (fun _ row => row.organizationId = org) db.runExecutionFacts
    db'.runExecutionFacts
  replays : Table.Outside (fun _ row => row.organizationId = org) db.runReplays db'.runReplays
  reservations : Table.Outside (fun _ row => row.organizationId = org) db.quotaReservations
    db'.quotaReservations
  policies : Table.Outside (fun key _ => key = org) db.quotaPolicies db'.quotaPolicies
  usages : Table.Outside (fun key _ => key = org) db.quotaUsages db'.quotaUsages
  heads : Table.Outside (fun key _ => key = org) db.auditHeads db'.auditHeads
  audit : Table.Outside (fun key _ => key.1 = org) db.auditEvents db'.auditEvents

variable {org : Uuid} {db db' db'' : Db}

theorem Db.Within.refl (org : Uuid) (db : Db) : db.Within org db := by
  constructor <;> first | rfl | exact .refl _

theorem Db.Within.trans (h : db.Within org db') (h' : db'.Within org db'') :
    db.Within org db'' where
  memberships := h'.memberships.trans h.memberships
  projects := h.projects.trans h'.projects
  corpora := h.corpora.trans h'.corpora
  versions := h.versions.trans h'.versions
  sentences := h.sentences.trans h'.sentences
  runs := h.runs.trans h'.runs
  events := h.events.trans h'.events
  messages := h.messages.trans h'.messages
  artifacts := h.artifacts.trans h'.artifacts
  publications := h.publications.trans h'.publications
  facts := h.facts.trans h'.facts
  replays := h.replays.trans h'.replays
  reservations := h.reservations.trans h'.reservations
  policies := h.policies.trans h'.policies
  usages := h.usages.trans h'.usages
  heads := h.heads.trans h'.heads
  audit := h.audit.trans h'.audit

/-! ## Identifiers -/

/-- Every identifier in use has been drawn. -/
structure Db.Drawn (db : Db) : Prop where
  projects : Table.Below db.nextId db.projects
  corpora : Table.Below db.nextId db.corpora
  versions : Table.Below db.nextId db.corpusVersions
  sentences : ∀ {v n s}, db.sentences.lookup (v, n) = some s → v < db.nextId
  runs : Table.Below db.nextId db.runs
  messages : Table.Below db.nextId db.outboxMessages
  artifacts : Table.Below db.nextId db.artifacts
  publications : Table.Below db.nextId db.datgIndexPublications
  replays : Table.Below db.nextId db.runReplays
  reservations : Table.Below db.nextId db.quotaReservations

theorem Db.Inv.drawn (h : db.Inv) : db.Drawn where
  projects := h.projects
  corpora := h.corpora
  versions := h.versions
  sentences := h.sentences
  runs := h.log.fresh
  messages := h.outbox.fresh
  artifacts := h.stored.fresh
  publications := h.publications
  replays := h.replays
  reservations := h.reserved.fresh

theorem Db.Drawn.advance (h : db.Drawn) : ({ db with nextId := db.nextId + 1 } : Db).Drawn where
  projects := h.projects.mono (Nat.le_succ _)
  corpora := h.corpora.mono (Nat.le_succ _)
  versions := h.versions.mono (Nat.le_succ _)
  sentences hs := Nat.lt_succ_of_lt (h.sentences hs)
  runs := h.runs.mono (Nat.le_succ _)
  messages := h.messages.mono (Nat.le_succ _)
  artifacts := h.artifacts.mono (Nat.le_succ _)
  publications := h.publications.mono (Nat.le_succ _)
  replays := h.replays.mono (Nat.le_succ _)
  reservations := h.reservations.mono (Nat.le_succ _)

/-- What a piece of a transaction for the organization leaves: everybody else's rows, and
no identifier in use that has not been drawn. -/
structure Db.Serves (org : Uuid) (db db' : Db) : Prop where
  within : db.Within org db'
  drawn : db'.Drawn
  next : db.nextId ≤ db'.nextId

theorem Db.Serves.refl (org : Uuid) (h : db.Drawn) : db.Serves org db :=
  ⟨.refl org db, h, Nat.le_refl _⟩

theorem Db.Serves.trans (h : db.Serves org db') (h' : db'.Serves org db'') : db.Serves org db'' :=
  ⟨h.within.trans h'.within, h'.drawn, h.next.trans h'.next⟩

/-! ## Statements -/

/-- The identifier has been drawn, and holds no other organization's run. -/
def Db.RunOf (db : Db) (org runId : Uuid) : Prop :=
  runId < db.nextId ∧ ∀ row, db.runs.lookup runId = some row → row.organizationId = org

theorem Db.RunOf.later {runId : Uuid} (h : db.RunOf org runId) (hs : db.Serves org db') :
    db'.RunOf org runId :=
  ⟨lt_of_lt_of_le h.1 hs.next, hs.within.runs.own h.2⟩

theorem Db.Drawn.runOf {runId : Uuid} {run : Run} (hd : db.Drawn)
    (hrun : db.runs.lookup runId = some run) (horg : run.organizationId = org) :
    db.RunOf org runId := by
  refine ⟨hd.runs _ _ hrun, fun row hrow => ?_⟩
  rw [hrun] at hrow
  cases hrow
  exact horg

theorem setRun_serves {runId : Uuid} {run : Run} {u : Unit} (hd : db.Drawn)
    (h : Returns (setRun runId run) db u db') (hown : db.RunOf org runId)
    (horg : run.organizationId = org) : db.Serves org db' := by
  obtain rfl := setRun_returns h
  exact ⟨{ Db.Within.refl org db with runs := .insert hown.2 horg },
    { hd with runs := hd.runs.insert hown.1 _ }, Nat.le_refl _⟩

theorem addRunEvent_serves {runId : Uuid} {sequence : Nat} {eventType : String}
    {payload : EventPayload} {u : Unit} (hd : db.Drawn)
    (h : Returns (addRunEvent org runId sequence eventType payload) db u db') :
    db.Serves org db' := by
  obtain ⟨hfree, rfl⟩ := addRunEvent_returns h
  refine ⟨{ Db.Within.refl org db with events := .insert (fun row hrow => ?_) rfl },
    { hd with runs := hd.runs }, Nat.le_refl _⟩
  rw [hfree] at hrow
  cases hrow

theorem addOutboxMessage_serves {runId : Uuid} {run : Run} {eventType : String} {now : Instant}
    {u : Unit} (hd : db.Drawn) (h : Returns (addOutboxMessage runId run eventType now) db u db')
    (horg : run.organizationId = org) : db.Serves org db' := by
  obtain rfl := addOutboxMessage_returns h
  exact ⟨{ Db.Within.refl org db with messages := .draw hd.messages horg },
    { hd.advance with messages := hd.messages.draw _ }, Nat.le_succ _⟩

theorem append_serves {actor : AuditIdentity} {action : AuditAction} {rtype : AuditResourceType}
    {rid : Uuid} {requestId : Option String} {metadata : List (String × AuditValue)}
    {now : Instant} {u : Unit} (hd : db.Drawn)
    (h : Returns (AuditWriter.append org actor action rtype rid requestId metadata now) db u db') :
    db.Serves org db' := by
  obtain ⟨head, -, -, rfl⟩ := append_returns h
  exact ⟨{ Db.Within.refl org db with
      audit := .insert (fun _ _ => rfl) rfl
      heads := .insert (fun _ _ => rfl) rfl }, { hd with runs := hd.runs }, Nat.le_refl _⟩

/-! ## Quota -/

theorem Db.Serves.usage (hd : db.Drawn) (usage : QuotaUsage) :
    db.Serves org { db with quotaUsages := db.quotaUsages.insert org usage } :=
  ⟨{ Db.Within.refl org db with usages := .insert (fun _ _ => rfl) rfl },
    { hd with runs := hd.runs }, Nat.le_refl _⟩

/-- The reservation found for a run is the organization's. -/
theorem Db.Serves.reservation {runId rid : Uuid} {r : QuotaReservation} (hd : db.Drawn)
    (hown : QuotaManager.ownReservation db org runId = some (rid, r)) (r' : QuotaReservation)
    (horg : r'.organizationId = r.organizationId) :
    db.Serves org { db with quotaReservations := db.quotaReservations.insert rid r' } := by
  obtain ⟨hr, hr_org, -⟩ := QuotaManager.ownReservation_some hown
  have hold : ∀ row, db.quotaReservations.lookup rid = some row → row.organizationId = org := by
    intro row hrow
    rw [hr] at hrow
    cases hrow
    exact hr_org
  exact ⟨{ Db.Within.refl org db with reservations := .insert hold (horg.trans hr_org) },
    { hd with reservations := hd.reservations.insert (hd.reservations _ _ hr) r' }, Nat.le_refl _⟩

namespace QuotaManager

theorem reserveRun_serves {policy : Option QuotaPolicyValues} {runId : Uuid} {run : Run}
    {now : Instant} {b : Bool} (hd : db.Drawn)
    (h : Returns (reserveRun policy org runId run now) db b db') : db.Serves org db' := by
  cases hown : ownReservation db org runId with
  | none =>
    obtain ⟨p, usage, expiresAt, -, -, -, -, rfl⟩ := reserveRun_returns h hown
    have hcharged := @Db.Serves.usage org _ hd (usage.charge (runQuotaClass run.kind))
    exact ⟨{ hcharged.within with reservations := .draw hd.reservations rfl },
      { hd.advance with reservations := hd.reservations.draw _ }, Nat.le_succ _⟩
  | some found =>
    unfold reserveRun at h
    obtain ⟨r, s, hres, h⟩ := h.bind
    obtain ⟨rfl, rfl⟩ := reservationOf_returns hres
    rw [hown] at h
    obtain ⟨u, s, hreq, h⟩ := h.bind
    obtain ⟨-, rfl⟩ := hreq.require
    obtain ⟨-, rfl⟩ := h.pure
    exact .refl org hd

theorem renewRun_serves {runId : Uuid} {run : Run} {now : Instant} {b : Bool} (hd : db.Drawn)
    (h : Returns (renewRun org runId run now) db b db') : db.Serves org db' := by
  unfold renewRun at h
  obtain ⟨r, s, hres, h⟩ := h.bind
  obtain ⟨rfl, rfl⟩ := reservationOf_returns hres
  split at h
  · obtain ⟨-, rfl⟩ := h.pure
    exact .refl org hd
  · next rid r hown =>
    obtain ⟨-, h⟩ | ⟨-, h⟩ := h.ite
    · obtain ⟨a, s, hget, h⟩ := h.bind
      obtain ⟨rfl, rfl⟩ := hget.get
      obtain ⟨p, s, hfound, h⟩ := h.bind
      obtain ⟨-, rfl⟩ := hfound.found
      split at h
      · exact h.throw.elim
      · obtain ⟨u, s, hset, h⟩ := h.bind
        obtain rfl := setReservation_returns hset
        obtain ⟨-, rfl⟩ := h.pure
        exact .reservation hd hown _ rfl
    · obtain ⟨-, rfl⟩ := h.pure
      exact .refl org hd

theorem releaseRun_serves {runId : Uuid} {ending : QuotaReservationState} {now : Instant} {b : Bool}
    (hd : db.Drawn) (h : Returns (releaseRun org runId ending now) db b db') :
    db.Serves org db' := by
  obtain ⟨-, rfl, -⟩ | ⟨-, rid, r, usage, hown, -, -, rfl⟩ := releaseRun_returns h
  · exact .refl org hd
  · have hcharged := @Db.Serves.usage org _ hd (usage.discharge r.quotaClass)
    exact hcharged.trans (.reservation hcharged.drawn hown _ rfl)

theorem consumeArtifact_serves {policy : Option QuotaPolicyValues} {kind : ArtifactKind}
    {sizeBytes : Nat} {u : Unit} (hd : db.Drawn)
    (h : Returns (consumeArtifact policy org kind sizeBytes) db u db') : db.Serves org db' := by
  obtain ⟨p, usage, -, -, -, -, rfl⟩ := consumeArtifact_returns h
  exact .usage hd _

theorem consumeCorpusSentences_serves {policy : Option QuotaPolicyValues} {sentenceCount : Nat}
    {operation : String} {u : Unit} (hd : db.Drawn)
    (h : Returns (consumeCorpusSentences policy org sentenceCount operation) db u db') :
    db.Serves org db' := by
  obtain ⟨p, usage, -, -, -, rfl⟩ := consumeCorpusSentences_returns h
  exact .usage hd _

end QuotaManager

end CorpusKit
