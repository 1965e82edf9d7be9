import CorpusKit.Library.Rules
import CorpusKit.Persistence.Cancellations
import CorpusKit.Persistence.Evolution
import CorpusKit.Persistence.History
import CorpusKit.Persistence.Progress
import CorpusKit.Persistence.Storage
import CorpusKit.Refinement.Lineage
import CorpusKit.Refinement.Workspaces
import CorpusKit.System.Machine

/-! # What every operation owes and keeps

The contract all services run under. A program that writes what it read before
owes that the facts it read still hold where they must; in return every
operation keeps the invariants of the database and moves the world forward. -/

namespace CorpusKit

open Transaction Program Interleaving

/-! ## Transactions as changes -/

/-- What a transaction was given. -/
def Action.permit {β : Type} : Action β → Permit
  | .submit policy s _ => .submitting s.organizationId policy
  | .replay policy s _ => .submitting s.who.organizationId policy
  | .adopt policy reference _ _ => .reading reference.organizationId policy
  | .upload policy who _ _ _ _ => .reading who.organizationId policy
  | .finalize policy reference _ _ _ _ _ _ _ => .reading reference.organizationId policy
  | .createCorpus policy who _ _ prepared _ => ProjectWorkspace.writing who.organizationId policy prepared
  | .createVersion policy who _ _ prepared _ _ =>
    ProjectWorkspace.writing who.organizationId policy prepared
  | .tombstone .. => { retires := true }
  | .markPurged .. => { retires := true }
  | .requestDeletion .. => { retires := true }
  | .purgeProject .. => { erases := true }
  | .replacePolicy .. => { replaces := true }
  | _ => {}

/-- The content of a corpus version comes out of `prepare_corpus`. -/
def Prepared (dep : Deployment) (prepared : PreparedCorpus) : Prop :=
  ∃ limits request, prepareCorpus dep.nfc dep.sha256 limits request = .ok prepared

/-- The preparation the lineage check of a submission uses. -/
def Deployment.prepareInline (dep : Deployment) : CorpusImportRequest → Except Error PreparedCorpus :=
  prepareCorpus dep.nfc dep.sha256 JobControlPlane.lineageLimits

/-- What the caller of a transaction owes. -/
def Action.Owes (dep : Deployment) (w : World) {β : Type} : Action β → Prop
  | .submit _ s _ => Linked dep.prepareInline w.db (JobControlPlane.queuedRun s)
  | .transition _ run target _ => run.state ∈ target.expected
  | .progress reference run payload => DurableRunStore.Reports w.db reference run payload
  | .expire _ reservationId organizationId runId _ =>
    ExpiryCandidate w.db reservationId organizationId runId
  | .upload _ _ _ content _ _ => content.kind ≠ .runResult
  | .markPurged id row _ _ => ArtifactService.PurgeCandidate w.db id row
  | .createCorpus _ _ _ _ prepared _ => Prepared dep prepared
  | .createVersion _ _ _ _ prepared _ _ => Prepared dep prepared
  | .purgeProject _ projectId cutoff => cutoff ≤ w.now ∧ projectId < w.db.nextId
  | .markPublished id _ _ => id ∈ w.delivered
  | _ => True

theorem Action.changes {dep : Deployment} {w : World} {β : Type} {action : Action β} {b : β}
    {db : Db} (hi : w.db.Inv) (howes : action.Owes dep w)
    (h : Returns (action.body dep) w.db b db) : Changes action.permit w.db db := by
  cases action with
  | submit policy s now => exact (JobControlPlane.insertSubmission_changes hi h).1
  | replay policy s now => exact (RunManifestService.insertReplay_changes hi h).1
  | cancel who userId runId run now => exact (JobControlPlane.commitCancellation_changes hi h).1
  | readFor reference target =>
    obtain ⟨-, -, -, rfl⟩ := DurableRunStore.readRun_returns h
    exact .refl
  | transition reference run target now =>
    exact (DurableRunStore.commitTransition_changes hi howes h).1
  | progress reference run payload => exact DurableRunStore.commitProgress_changes howes h
  | adopt policy reference adopted now => exact (DurableRunStore.commitAdoptedResult_changes hi h).1
  | expire cutoff reservationId organizationId runId now =>
    exact expireReservation_changes hi howes h
  | replacePolicy current organizationId policy requestId now => exact replacePolicy_changes rfl rfl h
  | provision organizationId => exact ensurePlatformRows_changes h
  | upload policy who userId content retentionUntil now =>
    exact (ArtifactService.insertUpload_changes howes h).1
  | tombstone who projectId artifactId now => exact ArtifactService.tombstone_changes rfl h
  | markPurged id row cutoff now => exact ArtifactService.markPurged_changes rfl howes h
  | recordExecution reference facts inputs => exact RunManifestService.recordExecution_changes h
  | finalize policy reference factsSha256 outputs manifest expected comparison retentionUntil now =>
    exact (RunManifestService.finalizeManifest_changes h).1
  | completeReplay reference manifestArtifactId expected comparison now =>
    exact RunManifestService.completeReplay_changes h
  | createProject who name now => exact ProjectWorkspace.createProject_changes h
  | createCorpus policy who projectId name prepared now =>
    exact ProjectWorkspace.createCorpus_changes hi h
  | createVersion policy who projectId corpusId prepared operation now =>
    exact ProjectWorkspace.createVersion_changes h
  | requestDeletion who projectId confirmation retention now =>
    exact ProjectDeletion.request_changes rfl h
  | purgeProject organizationId projectId cutoff => exact (ProjectDeletion.purge_changes rfl h).1
  | claim workerId now expired ids => exact TransactionalOutbox.claimAll_changes h
  | markPublished id workerId now => exact TransactionalOutbox.markPublished_changes h
  | releaseFailed id workerId now => exact TransactionalOutbox.releaseFailed_changes h

/-- Runs enter with a link to the corpus version they name. -/
theorem Action.lineage {dep : Deployment} {w : World} {β : Type} {action : Action β} {b : β}
    {db : Db} (hi : w.db.Inv) (howes : action.Owes dep w)
    (h : Returns (action.body dep) w.db b db) (hl : w.db.Lineage dep.prepareInline) :
    db.Lineage dep.prepareInline := by
  have hc := action.changes hi howes h
  cases action with
  | submit policy s now =>
    obtain ⟨-, ⟨rfl, -, -, -⟩ | ⟨-, -, -, -, hruns⟩⟩ := JobControlPlane.insertSubmission_changes hi h
    · exact hl
    · exact hl.enter hc.later hruns howes
  | replay policy s now =>
    obtain ⟨-, source, hrows, ⟨rfl, -, -, -, -⟩ | ⟨userId, -, -, -, -, -, hruns, -⟩⟩ :=
      RunManifestService.insertReplay_changes hi h
    · exact hl
    · exact hl.enter hc.later hruns ((hl _ _ (Db.run?_some hrows.run).1).of_same rfl rfl rfl)
  | _ => exact hc.lineage rfl hi hl

/-! ## The contract -/

/-- What holds of the world between any two operations. -/
structure World.Inv (dep : Deployment) (w : World) : Prop where
  db : w.db.Inv
  lifecycle : w.db.Lifecycle
  history : w.db.History (Prepared dep)
  lineage : w.db.Lineage dep.prepareInline
  storage : w.db.Storage
  progress : w.db.Progress
  cancellations : w.db.Cancellations

/-- How the world moves, whoever moves it. -/
structure World.Later (w w' : World) : Prop where
  db : w.db.Later w'.db
  now : w.now ≤ w'.now
  delivered : w.delivered ⊆ w'.delivered
  signalled : w.signalled ⊆ w'.signalled

theorem World.Later.refl (w : World) : w.Later w :=
  ⟨.refl _, Nat.le_refl _, List.Subset.refl _, List.Subset.refl _⟩

theorem World.Later.trans {u v w : World} (h : u.Later v) (h' : v.Later w) : u.Later w :=
  ⟨h.db.trans h'.db, h.now.trans h'.now, fun _ hid => h'.delivered (h.delivered hid),
    fun _ hid => h'.signalled (h.signalled hid)⟩

/-! ### Rows read earlier -/

/-- The row was read under this identifier: it has only moved on since, and it is
only gone with its project. -/
structure ReadRow (db : Db) (id : Uuid) (row : Artifact) : Prop where
  fresh : id < db.nextId ∧ row.projectId < db.nextId
  keyed : row.Keyed
  later : ∀ row', db.artifacts.lookup id = some row' → row.Later row'
  held : (∃ row', db.artifacts.lookup id = some row') ∨ db.projects.lookup row.projectId = none

theorem ReadRow.of_lookup {db : Db} (hi : db.Inv) (hl : db.Lifecycle) (hs : db.Storage) {id : Uuid}
    {row : Artifact} (h : db.artifacts.lookup id = some row) : ReadRow db id row where
  fresh := by
    obtain ⟨project, hproject, -⟩ := hl.artifacts h
    exact ⟨hi.stored.fresh _ _ h, hi.projects _ _ hproject⟩
  keyed := hs.keyed h
  later row' hrow' := by
    rw [h] at hrow'
    cases hrow'
    exact .refl row
  held := .inl ⟨row, h⟩

/-- What was read stays read, whatever happens. -/
theorem ReadRow.evolve {db db' : Db} {id : Uuid} {row : Artifact} (h : ReadRow db id row)
    (hl : db.Later db') : ReadRow db' id row where
  fresh := ⟨Nat.lt_of_lt_of_le h.fresh.1 hl.next, Nat.lt_of_lt_of_le h.fresh.2 hl.next⟩
  keyed := h.keyed
  later row'' hrow'' := by
    obtain ⟨row', hrow', hlater⟩ := hl.artifacts id row'' hrow'' h.fresh.1
    exact (h.later row' hrow').trans hlater
  held := by
    obtain ⟨row', hrow'⟩ | hgone := h.held
    · have hproject := (h.later row' hrow').same.projectId
      rw [← hproject]
      exact hl.stay hrow' h.fresh.1 (hproject ▸ h.fresh.2)
    · right
      cases hlookup : db'.projects.lookup row.projectId with
      | none => rfl
      | some p =>
        obtain ⟨old, hold, -⟩ := hl.projects _ p hlookup h.fresh.2
        rw [hgone] at hold
        cases hold

theorem ReadRow.candidate {db : Db} {id : Uuid} {row : Artifact} (h : ReadRow db id row) :
    ArtifactService.PurgeCandidate db id row := fun row' hrow' =>
  ⟨(h.later row' hrow').same.organizationId, (h.later row' hrow').same.sizeBytes⟩

/-- What `purge_due` knows of a candidate when it deletes its object. -/
structure PurgeRead (w : World) (id : Uuid) (read : Artifact) (cutoff : Instant) : Prop where
  row : ReadRow w.db id read
  tombstoned : read.state = .tombstoned
  due : read.retentionUntil ≤ cutoff
  past : cutoff ≤ w.now

theorem PurgeRead.evolve {w w' : World} {id : Uuid} {read : Artifact} {cutoff : Instant}
    (h : PurgeRead w id read cutoff) (hdb : w.db.Later w'.db) (hnow : w.now ≤ w'.now) :
    PurgeRead w' id read cutoff :=
  { h with row := h.row.evolve hdb, past := h.past.trans hnow }

/-- What `reconcile_orphans` knows of a key when it deletes its object: no row it saw has it. -/
structure CollectRead (w : World) (key : String) (seen : Db) : Prop where
  later : seen.Later w.db
  unreferenced : ∀ {id row}, seen.artifacts.lookup id = some row → row.storageKey.render ≠ key

theorem CollectRead.evolve {w w' : World} {key : String} {seen : Db} (h : CollectRead w key seen)
    (hdb : w.db.Later w'.db) : CollectRead w' key seen :=
  { h with later := h.later.trans hdb }

def Request.Owes (w : World) {β : Type} : Request β → Prop
  | .purgeObject id read cutoff => PurgeRead w id read cutoff
  | .collect key seen => CollectRead w key seen
  | _ => True

def Op.Owes (dep : Deployment) (w : World) {β : Type} : Op β → Prop
  | .query _ => True
  | .write action => action.Owes dep w
  | .request r => r.Owes w

theorem Action.content_prepared {dep : Deployment} {w : World} {β : Type} {action : Action β}
    (howes : action.Owes dep w) (prepared : PreparedCorpus)
    (h : action.permit.content = some prepared) : Prepared dep prepared := by
  cases action <;> first | (cases h; exact howes) | cases h

variable {dep : Deployment} {w w' : World} {β : Type} {b : β}

theorem Op.Owes.purgeRead {o : Op β} (h : o.Owes dep w) {id : Uuid} {read : Artifact}
    {cutoff : Instant} (hpurge : o.purge? = some (id, read, cutoff)) : PurgeRead w id read cutoff := by
  cases o with
  | query q => cases hpurge
  | write action => cases hpurge
  | request r =>
    cases r with
    | purgeObject id' read' cutoff' =>
      cases hpurge
      exact h
    | _ => cases hpurge

/-- A transaction that pays what it owes keeps the invariants and moves the world on. -/
theorem Action.keeps {action : Action β} {db : Db} (hi : w.Inv dep) (howes : action.Owes dep w)
    (h : Returns (action.body dep) w.db b db) :
    ({ w with db } : World).Inv dep ∧ w.Later { w with db } := by
  have hc := action.changes hi.db howes h
  refine ⟨⟨hc.inv hi.db, hc.lifecycle hi.db hi.lifecycle,
    hc.history hi.db (action.content_prepared howes) hi.history,
    action.lineage hi.db howes h hi.lineage, hc.storage hi.db hi.lifecycle hi.storage,
    hc.progress hi.db hi.progress, hc.cancellations hi.db hi.cancellations⟩,
    { World.Later.refl w with db := hc.later }⟩

theorem Request.keeps {request : Request β} (hi : w.Inv dep)
    (h : Returns request.body w b w') : w'.Inv dep ∧ w.Later w' := by
  have hdb := request.db_eq h
  have hself := World.Later.refl w
  refine ⟨⟨hdb ▸ hi.db, hdb ▸ hi.lifecycle, hdb ▸ hi.history, hdb ▸ hi.lineage,
    hdb ▸ hi.storage, hdb ▸ hi.progress, hdb ▸ hi.cancellations⟩, ?_⟩
  cases request with
  | put key sha256 sizeBytes mediaType =>
    obtain ⟨rfl, -⟩ | ⟨-, rfl⟩ := putObject_returns h
    · exact hself
    · exact { hself with db := hself.db }
  | purgeObject id row cutoff =>
    rw [purgeObject_returns h]
    exact { hself with db := hself.db }
  | collect key seen =>
    rw [collect_returns h]
    exact { hself with db := hself.db }
  | publish message =>
    rw [publish_returns h]
    exact { hself with delivered := List.subset_cons_self _ _ }

theorem Op.keeps {o : Op β} (hi : w.Inv dep) (howes : o.Owes dep w)
    (h : Returns (o.exec dep) w b w') : w'.Inv dep ∧ w.Later w' := by
  cases o with
  | query q =>
    obtain ⟨-, rfl⟩ := query_returns h
    exact ⟨hi, .refl _⟩
  | write action =>
    obtain ⟨db, hbody, rfl⟩ := transact_returns h
    exact action.keeps hi howes hbody
  | request r => exact r.keeps hi h

theorem Tick.keeps (t : Tick) (hi : w.Inv dep) : (t.apply w).Inv dep ∧ w.Later (t.apply w) := by
  have hself := World.Later.refl w
  cases t with
  | pass duration => exact ⟨{ hi with db := hi.db }, { hself with now := Nat.le_add_right _ _ }⟩
  | store available => exact ⟨{ hi with db := hi.db }, { hself with db := hself.db }⟩
  | signal runId =>
    exact ⟨{ hi with db := hi.db }, { hself with signalled := List.subset_cons_self _ _ }⟩

/-- The contract of every call. -/
def base (dep : Deployment) (calls : Calls) : Contract (system dep calls) where
  inv := World.Inv dep
  evolve := World.Later
  may := fun _ _ _ => True
  must := fun _ _ o w => Op.Owes dep w o
  refl := World.Later.refl
  trans := World.Later.trans
  op := fun hi _ howes h => Op.keeps hi howes h
  tick := fun hi => Tick.keeps _ hi

/-! ## Steps of a program -/

section Steps

variable {calls : Calls} {α β : Type} {C : Contract (system dep calls)} {Q : α → List (Event (system dep calls)) → World → Prop}
  {E : Error → List (Event (system dep calls)) → World → Prop}
  {past : List (Event (system dep calls))} {w : World} {next : β → Service α}

/-- A program that goes on from a query, with its event. -/
theorem sat_query_event {q : World → Except Error β} (hi : C.inv w)
    (hmust : ∀ v, C.must past β (.query q) v)
    (h : ∀ v a u, C.evolve w v → C.inv v → q v = .ok a → C.evolve v u → C.inv u →
      Sat C Q E (next a) (⟨.query q, v, v⟩ :: past) u)
    (herr : ∀ v e u, C.evolve w v → C.inv v → q v = .error e → C.evolve v u → C.inv u →
      E e (⟨.query q, v, v⟩ :: past) u) :
    Sat C Q E (Prog.perform (.query q) >>= next) past w := by
  refine Sat.bind hi (Sat.perform (fun v _ _ _ => hmust v) (fun v a v' u hv hi _ hret hu hiu => ?_)
    fun v e u hv hi _ hraise hu hiu => ?_)
  · have hret : Returns ((Op.query q).exec dep) v a v' := hret
    obtain ⟨heq, rfl⟩ := query_returns hret
    exact h v a u hv hi heq hu hiu
  · refine herr v e u hv hi ?_ hu hiu
    have hraise : ((q v).map fun b => (b, v)) = .error e := hraise
    cases hq : q v with
    | error e' => rw [hq] at hraise; cases hraise; rfl
    | ok r => rw [hq] at hraise; cases hraise

/-- A program that goes on from the value of a moment. -/
theorem sat_look {f : World → β} (hi : C.inv w)
    (hmust : ∀ v, C.must past β (.query fun x => .ok (f x)) v)
    (h : ∀ v u past', C.evolve w v → C.inv v → C.evolve v u → C.inv u →
      Sat C Q E (next (f v)) past' u) : Sat C Q E (look f >>= next) past w := by
  refine sat_query_event hi hmust (fun v a u hv hiv heq hu hiu => ?_) fun _ _ _ _ _ heq _ _ => ?_
  · cases heq
    exact h v u _ hv hiv hu hiu
  · cases heq

/-- A program that goes on from a session that only read, with its event. -/
theorem sat_read_event {body : DbTx β} (hi : C.inv w)
    (hmust : ∀ v q, C.must past β (.query q) v)
    (h : ∀ v a db u (o : Op β), C.evolve w v → C.inv v → Returns body v.db a db → C.evolve v u →
      C.inv u → Sat C Q E (next a) (⟨o, v, v⟩ :: past) u)
    (herr : ∀ v e u (o : Op β), C.evolve w v → C.inv v → Raises body v.db e → C.evolve v u → C.inv u →
      E e (⟨o, v, v⟩ :: past) u) : Sat C Q E (read body >>= next) past w := by
  refine sat_query_event hi (fun v => hmust v _) (fun v a u hv hiv heq hu hiu => ?_)
    fun v e u hv hiv heq hu hiu => ?_
  · cases hrun : body.run v.db with
    | error e => rw [hrun] at heq; cases heq
    | ok r =>
      rw [hrun] at heq
      cases heq
      exact h v r.1 r.2 u _ hv hiv hrun hu hiu
  · cases hrun : body.run v.db with
    | error e' =>
      rw [hrun] at heq
      cases heq
      exact herr v e u _ hv hiv hrun hu hiu
    | ok r => rw [hrun] at heq; cases heq

/-- A program that goes on from a session that only read. -/
theorem sat_read {body : DbTx β} (hi : C.inv w) (hmust : ∀ v q, C.must past β (.query q) v)
    (h : ∀ v a db u past', C.evolve w v → C.inv v → Returns body v.db a db → C.evolve v u →
      C.inv u → Sat C Q E (next a) past' u)
    (herr : ∀ v e u past', C.evolve w v → C.inv v → Raises body v.db e → C.evolve v u → C.inv u →
      E e past' u) : Sat C Q E (read body >>= next) past w :=
  sat_read_event hi hmust (fun v a db u _ => h v a db u _) fun v e u _ => herr v e u _

/-- A program that goes on from a transaction, with its event. -/
theorem sat_write_event {action : Action β} (hi : C.inv w)
    (hmust : ∀ v, C.evolve w v → C.inv v → C.may β (.write action) v →
      C.must past β (.write action) v)
    (h : ∀ v b db u, C.evolve w v → C.inv v → C.may β (.write action) v →
      Returns (action.body dep) v.db b db → C.evolve v u → C.evolve { v with db } u → C.inv u →
      Sat C Q E (next b) (⟨.write action, v, { v with db }⟩ :: past) u)
    (herr : ∀ v e u, C.evolve w v → C.inv v → Raises (action.body dep) v.db e →
      C.evolve v u → C.inv u → E e (⟨.write action, v, v⟩ :: past) u) :
    Sat C Q E (write action >>= next) past w := by
  refine Sat.bind hi (Sat.perform (fun v => hmust v) (fun v a v' u hv hi hm hret hu hiu => ?_)
    fun v e u hv hi _ hraise hu hiu => ?_)
  · have hstep := (C.op hi hm (hmust v hv hi hm) hret).2
    obtain ⟨db, hbody, rfl⟩ := transact_returns hret
    exact h v a db u hv hi hm hbody (C.trans hstep hu) hu hiu
  · refine herr v e u hv hi ?_ hu hiu
    have hraise : transact (action.body dep) v = .error e := hraise
    unfold transact at hraise
    unfold Raises
    split at hraise
    · cases hraise
    · next e' hrun => cases hraise; exact hrun

/-- A program that goes on from a transaction. -/
theorem sat_write {action : Action β} (hi : C.inv w)
    (hmust : ∀ v, C.evolve w v → C.inv v → C.may β (.write action) v →
      C.must past β (.write action) v)
    (h : ∀ v b db u past', C.evolve w v → C.inv v → C.may β (.write action) v →
      Returns (action.body dep) v.db b db → C.evolve v u → C.evolve { v with db } u → C.inv u →
      Sat C Q E (next b) past' u)
    (herr : ∀ v e u past', C.evolve w v → C.inv v → Raises (action.body dep) v.db e →
      C.evolve v u → C.inv u → E e past' u) : Sat C Q E (write action >>= next) past w :=
  sat_write_event hi hmust (fun v b db u => h v b db u _) fun v e u => herr v e u _

/-- A program that goes on from a request. -/
theorem sat_ask {request : Request β} (hi : C.inv w)
    (hmust : ∀ v, C.evolve w v → C.inv v → C.may β (.request request) v →
      C.must past β (.request request) v)
    (h : ∀ v b v' u past', C.evolve w v → C.inv v → C.may β (.request request) v →
      Returns request.body v b v' → C.evolve v u → C.evolve v' u → C.inv u →
      Sat C Q E (next b) past' u)
    (herr : ∀ v e u past', C.evolve w v → C.inv v → Raises request.body v e →
      C.evolve v u → C.inv u → E e past' u) : Sat C Q E (ask request >>= next) past w := by
  refine Sat.bind hi (Sat.perform (fun v => hmust v) (fun v a v' u hv hi hm hret hu hiu => ?_)
    fun v e u hv hi _ hraise hu hiu => ?_)
  · have hstep := (C.op hi hm (hmust v hv hi hm) hret).2
    exact h v a v' u _ hv hi hm hret (C.trans hstep hu) hu hiu
  · exact herr v e u _ hv hi hraise hu hiu

end Steps

end CorpusKit
