import CorpusKit.Persistence.RunLog
import CorpusKit.Persistence.Changes

/-! # What the rows owe each other

Invariants that tie the other tables to the runs: every run has one reservation,
active exactly while the run can still move; one dispatch intent and one
submission audit event; and the evidence of an adoption matches its artifact and
the run it ended. -/

namespace CorpusKit

variable {nextId : Uuid} {runs : Table Uuid Run}

/-! ## Reservations -/

/-- What a reservation says about its run. -/
structure QuotaReservation.Holds (r : QuotaReservation) (run : Run) : Prop where
  org : r.organizationId = run.organizationId
  quotaClass : r.quotaClass = runQuotaClass run.kind
  active : r.state = .active ↔ isTerminal run.state = false

structure Reserved (nextId : Uuid) (runs : Table Uuid Run)
    (reservations : Table Uuid QuotaReservation) : Prop where
  fresh : Table.Below nextId reservations
  owned : ∀ {rid r}, reservations.lookup rid = some r →
    ∃ run, runs.lookup r.runId = some run ∧ r.Holds run
  one : ∀ {id run}, runs.lookup id = some run → Table.HasOne (fun r => r.runId = id) reservations

variable {reservations : Table Uuid QuotaReservation}

theorem Reserved.mono (h : Reserved nextId runs reservations) {n : Uuid} (hn : nextId ≤ n) :
    Reserved n runs reservations := { h with fresh := h.fresh.mono hn }

/-- Two reservations of one run are the same. -/
theorem Reserved.unique (h : Reserved nextId runs reservations) {rid rid' : Uuid}
    {r r' : QuotaReservation} (hr : reservations.lookup rid = some r)
    (hr' : reservations.lookup rid' = some r') (hrun : r.runId = r'.runId) : rid = rid' := by
  obtain ⟨run, hlookup, -⟩ := h.owned hr
  obtain ⟨k, -, -, -, huniq⟩ := h.one hlookup
  exact (huniq _ _ hr rfl).trans (huniq _ _ hr' hrun.symm).symm

theorem Reserved.touch (h : Reserved nextId runs reservations) {runId : Uuid} {run : Run} (run' : Run)
    (hrun : runs.lookup runId = some run) (hholds : ∀ r : QuotaReservation, r.Holds run → r.Holds run') :
    Reserved nextId (runs.insert runId run') reservations where
  fresh := h.fresh
  owned {rid r} hr := by
    obtain ⟨owner, howner, hown⟩ := h.owned hr
    by_cases hid : r.runId = runId
    · rw [hid, hrun] at howner
      cases howner
      exact ⟨run', by rw [hid, AList.lookup_insert], hholds r hown⟩
    · exact ⟨owner, by rw [AList.lookup_insert_ne hid]; exact howner, hown⟩
  one hid := by
    obtain ⟨rfl, -⟩ | ⟨-, hold⟩ := Table.lookup_insert_cases hid
    · exact h.one hrun
    · exact h.one hold

theorem Reserved.enter (h : Reserved nextId runs reservations)
    (hruns : Table.Below nextId runs) {run : Run} {r : QuotaReservation}
    (hrun : r.runId = nextId) (hholds : r.Holds run) :
    Reserved (nextId + 2) (runs.insert nextId run) (reservations.insert (nextId + 1) r) where
  fresh := (h.fresh.mono (Nat.le_succ_of_le (Nat.le_succ _))).insert (Nat.lt_succ_self _) _
  owned {rid s} hs := by
    obtain ⟨-, rfl⟩ | ⟨-, hold⟩ := Table.lookup_insert_cases hs
    · exact ⟨run, by rw [hrun, AList.lookup_insert], hholds⟩
    · obtain ⟨owner, howner, hown⟩ := h.owned hold
      have hne : s.runId ≠ nextId := fun he => Nat.lt_irrefl _ (he ▸ hruns _ _ howner)
      exact ⟨owner, by rw [AList.lookup_insert_ne hne]; exact howner, hown⟩
  one {id other} hid := by
    have hfresh : reservations.lookup (nextId + 1) = none :=
      (h.fresh.mono (Nat.le_succ nextId)).none
    obtain ⟨hidn, -⟩ | ⟨hne, hold⟩ := Table.lookup_insert_cases hid
    · refine Table.HasOne.insert_first (fun k s hs hsid => ?_) (hrun.trans hidn.symm)
      obtain ⟨owner, howner, -⟩ := h.owned hs
      exact Nat.lt_irrefl _ (hsid.trans hidn ▸ hruns _ _ howner)
    · exact (h.one hold).insert_other hfresh fun hr => hne (hr.symm.trans hrun)

/-- A run moves and its reservation follows. -/
theorem Reserved.finish (h : Reserved nextId runs reservations) {runId rid : Uuid} {run : Run}
    {r : QuotaReservation} (run' : Run) (r' : QuotaReservation) (hrun : runs.lookup runId = some run)
    (hr : reservations.lookup rid = some r) (hown : r.runId = runId) (hown' : r'.runId = runId)
    (hholds : r.Holds run → r'.Holds run') :
    Reserved nextId (runs.insert runId run') (reservations.insert rid r') where
  fresh := h.fresh.insert (h.fresh _ _ hr) _
  owned {k s} hs := by
    obtain ⟨-, rfl⟩ | ⟨hne, hold⟩ := Table.lookup_insert_cases hs
    · obtain ⟨owner, howner, hh⟩ := h.owned hr
      rw [hown, hrun] at howner
      cases howner
      exact ⟨run', by rw [hown', AList.lookup_insert], hholds hh⟩
    · obtain ⟨owner, howner, hh⟩ := h.owned hold
      have hid : s.runId ≠ runId := fun he => hne (h.unique hold hr (he.trans hown.symm))
      exact ⟨owner, by rw [AList.lookup_insert_ne hid]; exact howner, hh⟩
  one {id other} hid := by
    have hone : Table.HasOne (fun s : QuotaReservation => s.runId = id) reservations := by
      obtain ⟨rfl, -⟩ | ⟨-, hold⟩ := Table.lookup_insert_cases hid
      · exact h.one hrun
      · exact h.one hold
    exact hone.insert_same hr (by rw [hown, hown'])

theorem Reserved.renew (h : Reserved nextId runs reservations) {rid : Uuid}
    {r : QuotaReservation} (r' : QuotaReservation) (hr : reservations.lookup rid = some r) (hown : r'.runId = r.runId)
    (hholds : ∀ run, r.Holds run → r'.Holds run) :
    Reserved nextId runs (reservations.insert rid r') where
  fresh := h.fresh.insert (h.fresh _ _ hr) _
  owned {k s} hs := by
    obtain ⟨-, rfl⟩ | ⟨-, hold⟩ := Table.lookup_insert_cases hs
    · obtain ⟨owner, howner, hh⟩ := h.owned hr
      exact ⟨owner, hown ▸ howner, hholds _ hh⟩
    · exact h.owned hold
  one hid := (h.one hid).insert_same hr (by rw [hown])

theorem Reserved.erase (h : Reserved nextId runs reservations) (gone : Run → Bool)
    (lost : Uuid → QuotaReservation → Bool)
    (hlost : ∀ {rid r run}, reservations.lookup rid = some r → runs.lookup r.runId = some run →
      lost rid r = gone run) :
    Reserved nextId (runs.deleteWhere fun _ run => gone run) (reservations.deleteWhere lost) where
  fresh := h.fresh.deleteWhere _
  owned hr := by
    obtain ⟨hold, hl⟩ := Table.lookup_deleteWhere.mp hr
    obtain ⟨owner, howner, hh⟩ := h.owned hold
    exact ⟨owner, Table.lookup_deleteWhere.mpr ⟨howner, (hlost hold howner).symm.trans hl⟩, hh⟩
  one hid := by
    obtain ⟨hold, hkept⟩ := Table.lookup_deleteWhere.mp hid
    exact (h.one hold).deleteWhere fun hr hid => (hlost hr (hid ▸ hold)).trans hkept

/-! ## Outbox -/

/-- The state columns of a message agree. -/
structure OutboxMessage.Coherent (message : OutboxMessage) : Prop where
  published : message.state = .published ↔ message.processedAt ≠ none
  claimed : message.state = .claimed → message.claimedAt ≠ none ∧ message.claimedBy ≠ none

structure Outbox (nextId : Uuid) (runs : Table Uuid Run) (outbox : Table Uuid OutboxMessage) :
    Prop where
  fresh : Table.Below nextId outbox
  owned : ∀ {id message}, outbox.lookup id = some message →
    ∃ run, runs.lookup message.runId = some run ∧ message.organizationId = run.organizationId
  coherent : ∀ {id message}, outbox.lookup id = some message → message.Coherent

variable {outbox : Table Uuid OutboxMessage}

theorem Outbox.mono (h : Outbox nextId runs outbox) {n : Uuid} (hn : nextId ≤ n) :
    Outbox n runs outbox := { h with fresh := h.fresh.mono hn }

theorem Outbox.touch (h : Outbox nextId runs outbox) {runId : Uuid} {run : Run} (run' : Run)
    (hrun : runs.lookup runId = some run) (horg : run'.organizationId = run.organizationId) :
    Outbox nextId (runs.insert runId run') outbox where
  fresh := h.fresh
  owned {id message} hm := by
    obtain ⟨owner, howner, ho⟩ := h.owned hm
    by_cases hid : message.runId = runId
    · rw [hid, hrun] at howner
      cases howner
      exact ⟨run', by rw [hid, AList.lookup_insert], ho.trans horg.symm⟩
    · exact ⟨owner, by rw [AList.lookup_insert_ne hid]; exact howner, ho⟩
  coherent := h.coherent

theorem Outbox.enter (h : Outbox nextId runs outbox) {run : Run} {n : Uuid} (hn : nextId ≤ n)
    (hnew : runs.lookup n = none) : Outbox n (runs.insert n run) outbox where
  fresh := h.fresh.mono hn
  owned {id message} hm := by
    obtain ⟨owner, howner, ho⟩ := h.owned hm
    have hne : message.runId ≠ n := by rintro he; rw [he, hnew] at howner; cases howner
    exact ⟨owner, by rw [AList.lookup_insert_ne hne]; exact howner, ho⟩
  coherent := h.coherent

/-- A message is written whose run exists. -/
theorem Outbox.write (h : Outbox nextId runs outbox) {id : Uuid} {run : Run}
    {message : OutboxMessage} (hid : id < nextId) (hrun : runs.lookup message.runId = some run)
    (horg : message.organizationId = run.organizationId) (hcoherent : message.Coherent) :
    Outbox nextId runs (outbox.insert id message) where
  fresh := h.fresh.insert hid _
  owned hm := by
    obtain ⟨-, rfl⟩ | ⟨-, hold⟩ := Table.lookup_insert_cases hm
    · exact ⟨run, hrun, horg⟩
    · exact h.owned hold
  coherent hm := by
    obtain ⟨-, rfl⟩ | ⟨-, hold⟩ := Table.lookup_insert_cases hm
    · exact hcoherent
    · exact h.coherent hold

theorem Outbox.update (h : Outbox nextId runs outbox) {id : Uuid} {message message' : OutboxMessage}
    (hm : outbox.lookup id = some message) (hrun : message'.runId = message.runId)
    (horg : message'.organizationId = message.organizationId) (hcoherent : message'.Coherent) :
    Outbox nextId runs (outbox.insert id message') := by
  obtain ⟨owner, howner, ho⟩ := h.owned hm
  exact h.write (h.fresh _ _ hm) (hrun ▸ howner) (horg.trans ho) hcoherent

theorem Outbox.erase (h : Outbox nextId runs outbox) (gone : Run → Bool)
    (lost : Uuid → OutboxMessage → Bool)
    (hlost : ∀ {id m run}, outbox.lookup id = some m → runs.lookup m.runId = some run →
      lost id m = gone run) :
    Outbox nextId (runs.deleteWhere fun _ run => gone run) (outbox.deleteWhere lost) where
  fresh := h.fresh.deleteWhere _
  owned hm := by
    obtain ⟨hold, hl⟩ := Table.lookup_deleteWhere.mp hm
    obtain ⟨owner, howner, ho⟩ := h.owned hold
    exact ⟨owner, Table.lookup_deleteWhere.mpr ⟨howner, (hlost hold howner).symm.trans hl⟩, ho⟩
  coherent hm := h.coherent (Table.lookup_deleteWhere.mp hm).1

/-! ## Submissions -/

/-- The message is the dispatch intent of the run. -/
def OutboxMessage.Dispatches (runId : Uuid) (message : OutboxMessage) : Prop :=
  message.runId = runId ∧ message.eventType = "run.dispatch"

/-- The event is the evidence of the run's submission. -/
def AuditEvent.Submits (runId : Uuid) (event : AuditEvent) : Prop :=
  event.resourceId = runId ∧ submissionActions.contains event.action = true

structure Submitted (nextId : Uuid) (runs : Table Uuid Run) (outbox : Table Uuid OutboxMessage)
    (audits : Table (Uuid × Nat) AuditEvent) : Prop where
  dispatched : ∀ {id run}, runs.lookup id = some run →
    Table.HasOne (OutboxMessage.Dispatches id) outbox
  audited : ∀ {id run}, runs.lookup id = some run → Table.HasOne (AuditEvent.Submits id) audits
  known : ∀ {key event runId}, audits.lookup key = some event → event.Submits runId →
    runId < nextId

variable {audits : Table (Uuid × Nat) AuditEvent}

theorem Submitted.mono (h : Submitted nextId runs outbox audits) {n : Uuid} (hn : nextId ≤ n) :
    Submitted n runs outbox audits :=
  { h with known := fun he hs => lt_of_lt_of_le (h.known he hs) hn }

theorem Submitted.touch (h : Submitted nextId runs outbox audits) {runId : Uuid} {run : Run} (run' : Run)
    (hrun : runs.lookup runId = some run) :
    Submitted nextId (runs.insert runId run') outbox audits where
  dispatched hid := by
    obtain ⟨rfl, -⟩ | ⟨-, hold⟩ := Table.lookup_insert_cases hid
    · exact h.dispatched hrun
    · exact h.dispatched hold
  audited hid := by
    obtain ⟨rfl, -⟩ | ⟨-, hold⟩ := Table.lookup_insert_cases hid
    · exact h.audited hrun
    · exact h.audited hold
  known := h.known

/-- Evidence of something else. -/
theorem Submitted.audit (h : Submitted nextId runs outbox audits) {key : Uuid × Nat}
    {event : AuditEvent} (hnew : audits.lookup key = none)
    (hother : submissionActions.contains event.action = false) :
    Submitted nextId runs outbox (audits.insert key event) := by
  have hno : ∀ runId, ¬ event.Submits runId :=
    fun _ hs => Bool.false_ne_true (hother.symm.trans hs.2)
  refine ⟨h.dispatched, fun hid => (h.audited hid).insert_other hnew (hno _), fun he hs => ?_⟩
  obtain ⟨-, rfl⟩ | ⟨-, hold⟩ := Table.lookup_insert_cases he
  · exact absurd hs (hno _)
  · exact h.known hold hs

theorem Submitted.message (h : Submitted nextId runs outbox audits) {id : Uuid}
    {message : OutboxMessage} (hnew : outbox.lookup id = none)
    (htype : message.eventType ≠ "run.dispatch") :
    Submitted nextId runs (outbox.insert id message) audits :=
  { h with dispatched := fun hid => (h.dispatched hid).insert_other hnew fun hd => htype hd.2 }

theorem Submitted.update (h : Submitted nextId runs outbox audits) {id : Uuid}
    {message message' : OutboxMessage} (hm : outbox.lookup id = some message)
    (hrun : message'.runId = message.runId) (htype : message'.eventType = message.eventType) :
    Submitted nextId runs (outbox.insert id message') audits :=
  { h with
    dispatched := fun hid => (h.dispatched hid).insert_same hm (by
      unfold OutboxMessage.Dispatches
      rw [hrun, htype]) }

/-- A run enters with its intent and its evidence. -/
theorem Submitted.enter (h : Submitted nextId runs outbox audits)
    (hmessages : ∀ {k m}, outbox.lookup k = some m → m.runId ≠ nextId) {run : Run} {mid n : Uuid}
    {message : OutboxMessage} {key : Uuid × Nat} {event : AuditEvent} (hn : nextId < n)
    (hmid : outbox.lookup mid = none) (hkey : audits.lookup key = none)
    (hdispatch : message.Dispatches nextId) (hsubmit : event.Submits nextId) :
    Submitted n (runs.insert nextId run) (outbox.insert mid message) (audits.insert key event) where
  dispatched {id other} hid := by
    obtain ⟨hidn, -⟩ | ⟨hne, hold⟩ := Table.lookup_insert_cases hid
    · rw [hidn]
      exact Table.HasOne.insert_first (fun k m hm hd => hmessages hm hd.1) hdispatch
    · exact (h.dispatched hold).insert_other hmid fun hd => hne (hd.1.symm.trans hdispatch.1)
  audited {id other} hid := by
    obtain ⟨hidn, -⟩ | ⟨hne, hold⟩ := Table.lookup_insert_cases hid
    · rw [hidn]
      exact Table.HasOne.insert_first (fun k e he hs => Nat.lt_irrefl _ (h.known he hs)) hsubmit
    · exact (h.audited hold).insert_other hkey fun hs => hne (hs.1.symm.trans hsubmit.1)
  known he hs := by
    obtain ⟨-, rfl⟩ | ⟨-, hold⟩ := Table.lookup_insert_cases he
    · rw [← hs.1, hsubmit.1]; exact hn
    · exact (h.known hold hs).trans hn

theorem Submitted.erase (h : Submitted nextId runs outbox audits) (gone : Run → Bool)
    (lost : Uuid → OutboxMessage → Bool)
    (hlost : ∀ {id m run}, outbox.lookup id = some m → runs.lookup m.runId = some run →
      lost id m = gone run) :
    Submitted nextId (runs.deleteWhere fun _ run => gone run) (outbox.deleteWhere lost) audits where
  dispatched hid := by
    obtain ⟨hold, hkept⟩ := Table.lookup_deleteWhere.mp hid
    exact (h.dispatched hold).deleteWhere fun hm hd =>
      (hlost hm (hd.1 ▸ hold)).trans hkept
  audited hid := h.audited (Table.lookup_deleteWhere.mp hid).1
  known := h.known

/-! ## Adoptions -/

/-- The event says that an adoption ended the run. -/
def AuditEvent.EndsByAdoption (runId : Uuid) (event : AuditEvent) : Prop :=
  event.action = .runSucceeded ∧ event.actor = .service .adoption ∧ event.resourceId = runId

/-- The event says that the artifact was adopted. -/
def AuditEvent.Adopts (artifactId : Uuid) (event : AuditEvent) : Prop :=
  event.action = .artifactAdopted ∧ event.resourceId = artifactId

/-- Some row satisfies the condition. -/
def Audited (audits : Table (Uuid × Nat) AuditEvent) (p : AuditEvent → Prop) : Prop :=
  ∃ key event, audits.lookup key = some event ∧ p event

/-- A run-result artifact of the run that an adoption committed. -/
structure AdoptedBy (artifacts : Table Uuid Artifact) (audits : Table (Uuid × Nat) AuditEvent)
    (runId artifactId : Uuid) (artifact : Artifact) : Prop where
  row : artifacts.lookup artifactId = some artifact
  run : artifact.runId = some runId
  kind : artifact.kind = .runResult
  audited : Audited audits (AuditEvent.Adopts artifactId)

structure Adoptions (nextId : Uuid) (runs : Table Uuid Run) (artifacts : Table Uuid Artifact)
    (audits : Table (Uuid × Nat) AuditEvent) : Prop where
  knownArtifact : ∀ {id}, Audited audits (AuditEvent.Adopts id) → id < nextId
  knownRun : ∀ {id}, Audited audits (AuditEvent.EndsByAdoption id) → id < nextId
  place : ∀ {runId id a}, AdoptedBy artifacts audits runId id a → runId < nextId ∧
    ∀ run, runs.lookup runId = some run → a.organizationId = run.organizationId ∧
      a.projectId = run.projectId
  once : ∀ {key key' e e' runId}, audits.lookup key = some e → audits.lookup key' = some e' →
    e.EndsByAdoption runId → e'.EndsByAdoption runId → key = key'
  ended : ∀ {runId run}, runs.lookup runId = some run →
    (Audited audits (AuditEvent.EndsByAdoption runId) ↔ ∃ id a, AdoptedBy artifacts audits runId id a)
  named : ∀ {runId run id a}, runs.lookup runId = some run → AdoptedBy artifacts audits runId id a →
    run.state = .succeeded ∧ ∃ mediaType schemaId,
      run.resultSummary = some (.artifact id mediaType schemaId a.sha256 a.sizeBytes)

variable {artifacts : Table Uuid Artifact}

theorem AuditEvent.isPlain_submits {event : AuditEvent} (h : event.isPlain = true) :
    submissionActions.contains event.action = false := by
  simp only [isPlain, Bool.and_eq_true, Bool.not_eq_true'] at h
  exact h.1

theorem AuditEvent.not_adopts {event : AuditEvent} (h : event.isAdoption = false) (id : Uuid) :
    ¬ event.Adopts id ∧ ¬ event.EndsByAdoption id := by
  simp only [isAdoption, Bool.or_eq_false_iff, Bool.and_eq_false_iff, beq_eq_false_iff_ne] at h
  exact ⟨fun ha => h.1 ha.1, fun he => h.2.elim (fun hn => hn he.1) fun hn => hn he.2.1⟩

theorem AuditEvent.isPlain_adoption {event : AuditEvent} (h : event.isPlain = true) :
    event.isAdoption = false := by
  simp only [isPlain, Bool.and_eq_true, Bool.not_eq_true'] at h
  exact h.2

theorem AuditEvent.submits_adoption {event : AuditEvent}
    (h : submissionActions.contains event.action = true) : event.isAdoption = false := by
  have hother : ∀ action : AuditAction, submissionActions.contains action = true →
      (action == .artifactAdopted) = false ∧ (action == .runSucceeded) = false := by
    intro action
    cases action <;> decide
  rw [isAdoption, (hother _ h).1, (hother _ h).2, Bool.false_and, Bool.or_false]

theorem audited_insert {key : Uuid × Nat} {event : AuditEvent} {p : AuditEvent → Prop}
    (hnew : audits.lookup key = none) :
    Audited (audits.insert key event) p ↔ p event ∨ Audited audits p := by
  constructor
  · rintro ⟨k, e, he, hp⟩
    obtain ⟨-, rfl⟩ | ⟨-, hold⟩ := Table.lookup_insert_cases he
    · exact .inl hp
    · exact .inr ⟨k, e, hold, hp⟩
  · rintro (hp | ⟨k, e, he, hp⟩)
    · exact ⟨key, event, AList.lookup_insert _, hp⟩
    · have hne : k ≠ key := by rintro rfl; rw [hnew] at he; cases he
      exact ⟨k, e, by rw [AList.lookup_insert_ne hne]; exact he, hp⟩

theorem audited_insert_other {key : Uuid × Nat} {event : AuditEvent} {p : AuditEvent → Prop}
    (hnew : audits.lookup key = none) (hp : ¬ p event) :
    Audited (audits.insert key event) p ↔ Audited audits p := by
  rw [audited_insert hnew]
  exact or_iff_right hp

theorem Adoptions.mono (h : Adoptions nextId runs artifacts audits) {n : Uuid} (hn : nextId ≤ n) :
    Adoptions n runs artifacts audits :=
  { h with
    knownArtifact := fun ha => lt_of_lt_of_le (h.knownArtifact ha) hn
    knownRun := fun ha => lt_of_lt_of_le (h.knownRun ha) hn
    place := fun ha => ⟨lt_of_lt_of_le (h.place ha).1 hn, (h.place ha).2⟩ }

/-- A run that no adoption ended may change. -/
theorem Adoptions.touch (h : Adoptions nextId runs artifacts audits) {runId : Uuid}
    {run : Run} (run' : Run) (hrun : runs.lookup runId = some run) (hlive : run.state ≠ .succeeded)
    (horg : run'.organizationId = run.organizationId) (hproject : run'.projectId = run.projectId) :
    Adoptions nextId (runs.insert runId run') artifacts audits :=
  { h with
    place := fun {r id a} ha => by
      refine ⟨(h.place ha).1, fun s hs => ?_⟩
      obtain ⟨rfl, rfl⟩ | ⟨-, hold⟩ := Table.lookup_insert_cases hs
      · rw [horg, hproject]; exact (h.place ha).2 run hrun
      · exact (h.place ha).2 s hold
    ended := fun hs => by
      obtain ⟨rfl, -⟩ | ⟨-, hold⟩ := Table.lookup_insert_cases hs
      · exact h.ended hrun
      · exact h.ended hold
    named := fun hs ha => by
      obtain ⟨rfl, -⟩ | ⟨-, hold⟩ := Table.lookup_insert_cases hs
      · exact absurd (h.named hrun ha).1 hlive
      · exact h.named hold ha }

theorem Adoptions.enter (h : Adoptions nextId runs artifacts audits) {run : Run} :
    Adoptions nextId (runs.insert nextId run) artifacts audits :=
  { h with
    place := fun {r id a} ha => by
      refine ⟨(h.place ha).1, fun s hs => ?_⟩
      obtain ⟨rfl, -⟩ | ⟨-, hold⟩ := Table.lookup_insert_cases hs
      · exact absurd (h.place ha).1 (Nat.lt_irrefl _)
      · exact (h.place ha).2 s hold
    ended := fun {r s} hs => by
      obtain ⟨rfl, -⟩ | ⟨-, hold⟩ := Table.lookup_insert_cases hs
      · exact ⟨fun he => absurd (h.knownRun he) (Nat.lt_irrefl _),
          fun ⟨id, a, ha⟩ => absurd (h.place ha).1 (Nat.lt_irrefl _)⟩
      · exact h.ended hold
    named := fun {r s id a} hs ha => by
      obtain ⟨rfl, -⟩ | ⟨-, hold⟩ := Table.lookup_insert_cases hs
      · exact absurd (h.place ha).1 (Nat.lt_irrefl _)
      · exact h.named hold ha }

/-- Evidence of something else. -/
theorem Adoptions.audit (h : Adoptions nextId runs artifacts audits) {key : Uuid × Nat}
    {event : AuditEvent} (hnew : audits.lookup key = none) (hother : event.isAdoption = false) :
    Adoptions nextId runs artifacts (audits.insert key event) := by
  have hno := AuditEvent.not_adopts hother
  have hadopts : ∀ id, Audited (audits.insert key event) (AuditEvent.Adopts id) ↔
      Audited audits (AuditEvent.Adopts id) := fun id => audited_insert_other hnew (hno id).1
  have hends : ∀ id, Audited (audits.insert key event) (AuditEvent.EndsByAdoption id) ↔
      Audited audits (AuditEvent.EndsByAdoption id) := fun id => audited_insert_other hnew (hno id).2
  have hby : ∀ {runId id a}, AdoptedBy artifacts (audits.insert key event) runId id a ↔
      AdoptedBy artifacts audits runId id a := fun {runId id a} =>
    ⟨fun hb => { hb with audited := (hadopts id).mp hb.audited },
      fun hb => { hb with audited := (hadopts id).mpr hb.audited }⟩
  refine ⟨fun ha => h.knownArtifact ((hadopts _).mp ha), fun ha => h.knownRun ((hends _).mp ha),
    fun ha => h.place (hby.mp ha), fun {k k' e e' r} he he' hp hp' => ?_, fun hs => ?_,
    fun hs ha => h.named hs (hby.mp ha)⟩
  · obtain ⟨-, rfl⟩ | ⟨-, hold⟩ := Table.lookup_insert_cases he
    · exact absurd hp (hno _).2
    · obtain ⟨-, rfl⟩ | ⟨-, hold'⟩ := Table.lookup_insert_cases he'
      · exact absurd hp' (hno _).2
      · exact h.once hold hold' hp hp'
  · rw [hends, h.ended hs]
    exact exists_congr fun id => exists_congr fun a => hby.symm

/-- Artifacts change without losing what identifies them. -/
theorem Adoptions.retain (h : Adoptions nextId runs artifacts audits)
    {artifacts' : Table Uuid Artifact}
    (hforward : ∀ {id a}, artifacts.lookup id = some a → ∃ a', artifacts'.lookup id = some a')
    (hback : ∀ {id a'}, artifacts'.lookup id = some a' → id < nextId → ∃ a,
      artifacts.lookup id = some a ∧ a'.organizationId = a.organizationId ∧
        a'.projectId = a.projectId ∧ a'.runId = a.runId ∧ a'.kind = a.kind ∧
        a'.sha256 = a.sha256 ∧ a'.sizeBytes = a.sizeBytes) :
    Adoptions nextId runs artifacts' audits := by
  have hby : ∀ {runId id a'}, AdoptedBy artifacts' audits runId id a' → ∃ a,
      AdoptedBy artifacts audits runId id a ∧ a'.organizationId = a.organizationId ∧
        a'.projectId = a.projectId ∧ a'.sha256 = a.sha256 ∧ a'.sizeBytes = a.sizeBytes := by
    intro runId id a' hb
    obtain ⟨a, ha, ho, hp, hr, hk, hsha, hsize⟩ := hback hb.row (h.knownArtifact hb.audited)
    exact ⟨a, ⟨ha, hr ▸ hb.run, hk ▸ hb.kind, hb.audited⟩, ho, hp, hsha, hsize⟩
  refine ⟨h.knownArtifact, h.knownRun, fun hb => ?_, h.once, fun hs => ?_, fun hs hb => ?_⟩
  · obtain ⟨a, ha, ho, hp, -⟩ := hby hb
    rw [ho, hp]
    exact h.place ha
  · rw [h.ended hs]
    constructor
    · rintro ⟨id, a, ha⟩
      obtain ⟨a', ha'⟩ := hforward ha.row
      obtain ⟨a₀, ha₀, -, -, hr, hk, -⟩ := hback ha' (h.knownArtifact ha.audited)
      rw [ha.row] at ha₀
      cases ha₀
      exact ⟨id, a', ha', hr.trans ha.run, hk.trans ha.kind, ha.audited⟩
    · rintro ⟨id, a', ha'⟩
      obtain ⟨a, ha, -⟩ := hby ha'
      exact ⟨id, a, ha⟩
  · obtain ⟨a, ha, -, -, hsha, hsize⟩ := hby hb
    rw [hsha, hsize]
    exact h.named hs ha

/-- An adoption: the artifact, the run it ends, and the evidence of both. -/
theorem Adoptions.adopt (h : Adoptions nextId runs artifacts audits) {runId : Uuid}
    {run run' : Run} {artifact : Artifact} {first second : Uuid × Nat}
    {adopted succeeded : AuditEvent} {mediaType schemaId : String}
    (hruns : Table.Below nextId runs) (hnew : artifacts.lookup nextId = none)
    (hrun : runs.lookup runId = some run) (hlive : run.state ≠ .succeeded)
    (hplace : artifact.organizationId = run'.organizationId ∧
      artifact.projectId = run'.projectId ∧ artifact.runId = some runId ∧ artifact.kind = .runResult)
    (hstate : run'.state = .succeeded)
    (hsummary : run'.resultSummary =
      some (.artifact nextId mediaType schemaId artifact.sha256 artifact.sizeBytes))
    (hfirst : audits.lookup first = none) (hsecond : audits.lookup second = none)
    (hne : second ≠ first) (hadopted : adopted.Adopts nextId)
    (hsucceeded : succeeded.EndsByAdoption runId) :
    Adoptions (nextId + 1) (runs.insert runId run') (artifacts.insert nextId artifact)
      ((audits.insert first adopted).insert second succeeded) := by
  have hsecond' : (audits.insert first adopted).lookup second = none := by
    rw [AList.lookup_insert_ne hne]; exact hsecond
  have hnot : ¬ Audited audits (AuditEvent.EndsByAdoption runId) := fun he => by
    obtain ⟨id, a, ha⟩ := (h.ended hrun).mp he
    exact hlive (h.named hrun ha).1
  have hadopts : ∀ id, Audited ((audits.insert first adopted).insert second succeeded)
      (AuditEvent.Adopts id) ↔ id = nextId ∨ Audited audits (AuditEvent.Adopts id) := by
    intro id
    rw [audited_insert_other hsecond' (fun ha => by have := ha.1; rw [hsucceeded.1] at this; cases this),
      audited_insert hfirst]
    exact or_congr_left ⟨fun ha => ha.2.symm.trans hadopted.2, fun he => ⟨hadopted.1, he ▸ hadopted.2⟩⟩
  have hends : ∀ id, Audited ((audits.insert first adopted).insert second succeeded)
      (AuditEvent.EndsByAdoption id) ↔ id = runId ∨ Audited audits (AuditEvent.EndsByAdoption id) := by
    intro id
    rw [audited_insert hsecond', audited_insert_other hfirst
      (fun he => by have := he.1; rw [hadopted.1] at this; cases this)]
    exact or_congr_left ⟨fun he => he.2.2.symm.trans hsucceeded.2.2,
      fun he => he ▸ hsucceeded⟩
  have hby : ∀ {r id a}, AdoptedBy (artifacts.insert nextId artifact)
      ((audits.insert first adopted).insert second succeeded) r id a ↔
      (r = runId ∧ id = nextId ∧ a = artifact) ∨ AdoptedBy artifacts audits r id a := by
    intro r id a
    constructor
    · intro hb
      obtain ⟨rfl, rfl⟩ | ⟨hidne, hold⟩ := Table.lookup_insert_cases hb.row
      · exact .inl ⟨Option.some.inj (hb.run.symm.trans hplace.2.2.1), rfl, rfl⟩
      · exact .inr ⟨hold, hb.run, hb.kind, ((hadopts id).mp hb.audited).resolve_left hidne⟩
    · rintro (⟨rfl, rfl, rfl⟩ | hb)
      · exact ⟨AList.lookup_insert _, hplace.2.2.1, hplace.2.2.2, (hadopts _).mpr (.inl rfl)⟩
      · have hidne : id ≠ nextId := fun he => Nat.lt_irrefl _ (he ▸ h.knownArtifact hb.audited)
        exact ⟨by rw [AList.lookup_insert_ne hidne]; exact hb.row, hb.run, hb.kind,
          (hadopts id).mpr (.inr hb.audited)⟩
  -- the run had no adopted artifact before
  have hnone : ∀ {id a}, ¬ AdoptedBy artifacts audits runId id a := fun ha =>
    hnot ((h.ended hrun).mpr ⟨_, _, ha⟩)
  refine ⟨fun {id} ha => ?_, fun {id} he => ?_, fun {r id a} hb => ?_,
    fun {k k' e e' r} he he' hp hp' => ?_, fun {r s} hs => ?_, fun {r s id a} hs hb => ?_⟩
  · obtain rfl | ha := (hadopts id).mp ha
    · exact Nat.lt_succ_self _
    · exact (h.knownArtifact ha).trans (Nat.lt_succ_self _)
  · obtain rfl | he := (hends id).mp he
    · exact (hruns _ _ hrun).trans (Nat.lt_succ_self _)
    · exact (h.knownRun he).trans (Nat.lt_succ_self _)
  · obtain ⟨rfl, rfl, rfl⟩ | hb := hby.mp hb
    · refine ⟨(hruns _ _ hrun).trans (Nat.lt_succ_self _), fun s hs => ?_⟩
      rw [AList.lookup_insert] at hs
      cases hs
      exact ⟨hplace.1, hplace.2.1⟩
    · refine ⟨(h.place hb).1.trans (Nat.lt_succ_self _), fun s hs => ?_⟩
      have hrne : r ≠ runId := by rintro rfl; exact hnone hb
      rw [AList.lookup_insert_ne hrne] at hs
      exact (h.place hb).2 s hs
  · obtain ⟨rfl, rfl⟩ | ⟨hkne, hold⟩ := Table.lookup_insert_cases he
    · obtain ⟨rfl, -⟩ | ⟨-, hold'⟩ := Table.lookup_insert_cases he'
      · rfl
      · obtain rfl : r = runId := hp.2.2.symm.trans hsucceeded.2.2
        obtain ⟨-, rfl⟩ | ⟨-, hold'⟩ := Table.lookup_insert_cases hold'
        · exact absurd (hp'.1.symm.trans hadopted.1) (by decide)
        · exact absurd ⟨_, _, hold', hp'⟩ hnot
    · obtain ⟨-, rfl⟩ | ⟨-, hold⟩ := Table.lookup_insert_cases hold
      · exact absurd (hp.1.symm.trans hadopted.1) (by decide)
      · obtain ⟨rfl, rfl⟩ | ⟨-, hold'⟩ := Table.lookup_insert_cases he'
        · obtain rfl : r = runId := hp'.2.2.symm.trans hsucceeded.2.2
          exact absurd ⟨_, _, hold, hp⟩ hnot
        · obtain ⟨-, rfl⟩ | ⟨-, hold'⟩ := Table.lookup_insert_cases hold'
          · exact absurd (hp'.1.symm.trans hadopted.1) (by decide)
          · exact h.once hold hold' hp hp'
  · rw [hends]
    obtain ⟨rfl, rfl⟩ | ⟨hrne, hold⟩ := Table.lookup_insert_cases hs
    · exact ⟨fun _ => ⟨nextId, artifact, hby.mpr (.inl ⟨rfl, rfl, rfl⟩)⟩, fun _ => .inl rfl⟩
    · rw [or_iff_right hrne, h.ended hold]
      refine exists_congr fun id => exists_congr fun a => ?_
      rw [hby]
      exact (or_iff_right fun hx => hrne hx.1).symm
  · obtain ⟨rfl, rfl, rfl⟩ | hb := hby.mp hb
    · rw [AList.lookup_insert] at hs
      cases hs
      exact ⟨hstate, mediaType, schemaId, hsummary⟩
    · have hrne : r ≠ runId := by rintro rfl; exact hnone hb
      rw [AList.lookup_insert_ne hrne] at hs
      exact h.named hs hb

/-- Whole projects go: a run goes together with its adopted artifact. -/
theorem Adoptions.erase (h : Adoptions nextId runs artifacts audits) (gone : Run → Bool)
    (lost : Uuid → Artifact → Bool)
    (hlost : ∀ {runId id run a}, runs.lookup runId = some run → gone run = false →
      AdoptedBy artifacts audits runId id a → lost id a = false) :
    Adoptions nextId (runs.deleteWhere fun _ run => gone run) (artifacts.deleteWhere lost) audits := by
  have hby : ∀ {r id a}, AdoptedBy (artifacts.deleteWhere lost) audits r id a →
      AdoptedBy artifacts audits r id a := fun hb =>
    { hb with row := (Table.lookup_deleteWhere.mp hb.row).1 }
  refine ⟨h.knownArtifact, h.knownRun, fun hb => ?_, h.once, fun hs => ?_, fun hs hb => ?_⟩
  · exact ⟨(h.place (hby hb)).1,
      fun s hs => (h.place (hby hb)).2 s (Table.lookup_deleteWhere.mp hs).1⟩
  · obtain ⟨hold, hkept⟩ := Table.lookup_deleteWhere.mp hs
    rw [h.ended hold]
    exact ⟨fun ⟨id, a, ha⟩ => ⟨id, a, { ha with
        row := Table.lookup_deleteWhere.mpr ⟨ha.row, hlost hold hkept ha⟩ }⟩,
      fun ⟨id, a, ha⟩ => ⟨id, a, hby ha⟩⟩
  · exact h.named (Table.lookup_deleteWhere.mp hs).1 (hby hb)

end CorpusKit
