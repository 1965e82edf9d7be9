import CorpusKit.System.Contract

/-! # Every service pays what it owes

Most of what a program owes is decided by the values it passes. Where a
maintenance pass or a dispatcher acts on rows it read earlier, the facts it
relies on are stable: nobody else can make them false. -/

namespace CorpusKit

open Transaction Program Interleaving

variable {dep : Deployment} {calls : Calls} {α β γ : Type}

/-! ## Programs that owe nothing to the world -/

/-- The operation is owed in no world. -/
def Owed (dep : Deployment) (β : Type) (o : Op β) : Prop := ∀ w, o.Owes dep w

theorem look_owed (f : World → β) : (look f).All (Owed dep) := .perform fun _ => trivial

theorem read_owed (body : DbTx β) : (read body).All (Owed dep) := .perform fun _ => trivial

theorem put_owed (key : StorageKey) (sha256 : Sha256) (sizeBytes : Nat) (mediaType : String) :
    (ask (.put key sha256 sizeBytes mediaType)).All (Owed dep) := .perform fun _ => trivial

theorem store_owed (key : StorageKey) (sha256 : Sha256) (sizeBytes : Nat)
    (mediaType operation : String) :
    (store key sha256 sizeBytes mediaType operation).All (Owed dep) :=
  (put_owed _ _ _ _).handle fun e => by split <;> trivial

theorem write_owed {action : Action β} (h : ∀ w, action.Owes dep w) :
    (write action).All (Owed dep) := .perform h

theorem pure_owed (a : α) : (pure a : Service α).All (Owed dep) := trivial

theorem throw_owed (e : Error) : (throw e : Service α).All (Owed dep) := trivial

theorem ite_owed {p : Prop} [Decidable p] {m n : Service α} (hm : p → m.All (Owed dep))
    (hn : ¬ p → n.All (Owed dep)) : (if p then m else n).All (Owed dep) := by
  split
  · next hp => exact hm hp
  · next hp => exact hn hp

namespace DurableRunStore

variable (reference : RunWorkflowReference)

theorem state_owed : (state reference).All (Owed dep) :=
  (read_owed _).bind fun _ => pure_owed _

theorem transitionLoop_owed (t : Transition) (attempts : Nat) :
    (transitionLoop reference t attempts).All (Owed dep) := by
  induction attempts with
  | zero => exact throw_owed _
  | succ attempts ih =>
    refine Prog.All.bind (write_owed fun _ => trivial) fun run => ?_
    refine ite_owed (fun _ => pure_owed _) fun _ => ite_owed (fun _ => pure_owed _) fun _ => ?_
    refine ite_owed (fun hexpected => ?_) fun _ => pure_owed _
    refine (look_owed _).bind fun now => Prog.All.bind (write_owed fun _ => hexpected) fun changed => ?_
    exact ite_owed (fun _ => pure_owed _) fun _ => ih

theorem requestCancellation_owed : (requestCancellation reference).All (Owed dep) := by
  refine (state_owed reference).bind fun s => ite_owed (fun _ => ?_) fun _ => pure_owed _
  exact transitionLoop_owed reference _ _

theorem acknowledgeCancellation_owed : (acknowledgeCancellation reference).All (Owed dep) := by
  refine (requestCancellation_owed reference).bind fun s => ite_owed (fun _ => ?_) fun _ => pure_owed _
  exact transitionLoop_owed reference _ _

theorem cancellationRequested_owed : (cancellationRequested reference).All (Owed dep) :=
  (state_owed reference).bind fun _ => pure_owed _

theorem prepare_owed : (prepare reference).All (Owed dep) := by
  refine (state_owed reference).bind fun s => ?_
  cases s with
  | queued => exact transitionLoop_owed reference _ _
  | cancelling => exact acknowledgeCancellation_owed reference
  | draft => exact throw_owed _
  | provisioning => exact pure_owed _
  | running => exact pure_owed _
  | cancelled => exact pure_owed _
  | succeeded => exact pure_owed _
  | failed => exact pure_owed _

theorem beginExecution_owed : (beginExecution reference).All (Owed dep) := by
  refine (state_owed reference).bind fun s => ?_
  refine Prog.All.bind (p := leaveQueue reference s)
    (ite_owed (fun _ => prepare_owed reference) fun _ => pure_owed _) fun prepared => ?_
  refine Prog.All.bind (p := start reference prepared)
    (ite_owed (fun _ => transitionLoop_owed reference _ _) fun _ => pure_owed _) fun started => ?_
  refine ite_owed (fun _ => ?_) fun _ => pure_owed _
  exact (acknowledgeCancellation_owed reference).bind fun _ => pure_owed _

/-- `complete` and `fail`: a run that is not over ends, unless it is asked to cancel. -/
theorem ending_owed (t : Transition) :
    (state reference >>= fun s =>
      if s = .cancelling then acknowledgeCancellation reference
      else if s = .cancelled ∨ s = .succeeded ∨ s = .failed then pure s
      else transition reference t).All (Owed dep) := by
  refine (state_owed reference).bind fun s => ?_
  refine ite_owed (fun _ => acknowledgeCancellation_owed reference) fun _ => ?_
  exact ite_owed (fun _ => pure_owed _) fun _ => transitionLoop_owed reference _ _

theorem complete_owed (summary : ResultSummary) : (complete reference summary).All (Owed dep) :=
  ending_owed reference _

theorem fail_owed (code : String) : (fail reference code).All (Owed dep) := ending_owed reference _

theorem commitAdopted_owed (adopted : AdoptedArtifact) :
    (commitAdopted reference adopted).All (Owed dep) :=
  (look_owed _).bind fun _ => (look_owed _).bind fun _ => write_owed fun _ => trivial

end DurableRunStore

open DurableRunStore in
theorem ArtifactAdoptionService.adopt_owed (reference : RunWorkflowReference)
    (claim : StagedResult) : (adopt dep reference claim).All (Owed dep) := by
  have hacknowledge : (acknowledge reference).All (Owed dep) :=
    (acknowledgeCancellation_owed reference).bind fun _ => pure_owed _
  refine (read_owed _).bind fun record => ?_
  refine Prog.All.bind (p := isAsked reference record) (ite_owed (fun _ => pure_owed _) fun _ =>
    cancellationRequested_owed reference) fun asked => ?_
  refine ite_owed (fun _ => hacknowledge) fun _ => ?_
  refine (cancellationRequested_owed reference).bind fun asked => ?_
  refine ite_owed (fun _ => hacknowledge) fun _ => ?_
  refine (put_owed _ _ _ _).bind fun _ => (look_owed _).bind fun now => ?_
  exact commitAdopted_owed reference _

namespace JobControlPlane

theorem requestCancellation_owed (who : JobActor) (runId : Uuid) :
    (requestCancellation who runId).All (Owed dep) := by
  refine (read_owed _).bind fun role => Prog.All.bind .require fun _ => ?_
  generalize maxCancellationAttempts = attempts
  induction attempts with
  | zero => exact throw_owed _
  | succ attempts ih =>
    refine (read_owed _).bind fun run => ite_owed (fun _ => ?_) fun _ => ?_
    · exact (read_owed _).bind fun _ => pure_owed _
    · refine (look_owed _).bind fun now => Prog.All.bind (write_owed fun _ => trivial) fun snapshot => ?_
      cases snapshot with
      | some snapshot => exact pure_owed _
      | none => exact ih

end JobControlPlane

namespace RunManifestService

theorem submitReplay_owed (who : JobActor) (projectId sourceRunId : Uuid) (key : String)
    (stored : RunManifest) : (submitReplay who projectId sourceRunId key stored).All (Owed dep) := by
  refine Prog.All.bind .require fun _ => (read_owed _).bind fun _ => (read_owed _).bind fun source => ?_
  refine Prog.All.bind ?_ fun expected => ?_
  · refine Prog.All.bind .require fun _ => (look_owed _).bind fun object => ?_
    exact Prog.All.bind .found fun object => Prog.All.bind .require fun _ => pure_owed _
  · exact (look_owed _).bind fun _ => (look_owed _).bind fun _ => write_owed fun _ => trivial

theorem finalize_owed (reference : RunWorkflowReference) (observed : Observation) :
    (finalize dep reference observed).All (Owed dep) := by
  refine (read_owed _).bind fun build => ?_
  cases build with
  | existing artifactId artifact =>
    exact (look_owed _).bind fun _ => Prog.All.bind (write_owed fun _ => trivial) fun _ => pure_owed _
  | fresh run factsSha256 outputs =>
    refine (store_owed _ _ _ _ _).bind fun _ => (look_owed _).bind fun _ => ?_
    exact (look_owed _).bind fun _ => write_owed fun _ => trivial

end RunManifestService

namespace ArtifactService

theorem isPublicUpload_ne {kind : ArtifactKind} (h : isPublicUpload kind = true) :
    kind ≠ .runResult := by
  rintro rfl
  cases h

theorem create_owed (who : ArtifactActor) (upload : Upload) :
    (create dep who upload).All (Owed dep) := by
  unfold create
  unfold Prog.require
  split
  case isFalse => exact throw_owed _
  case isTrue hkind =>
  refine (read_owed _).bind fun userId => (read_owed _).bind fun existing => ?_
  refine Prog.All.bind .require fun _ => Prog.All.bind ?_ fun object => ?_
  · cases existing with
    | none => exact pure_owed _
    | some row => exact .perform fun _ => trivial
  · split
    · exact pure_owed _
    · refine (store_owed _ _ _ _ _).bind fun _ => (look_owed _).bind fun created => ?_
      refine (look_owed _).bind fun policy => (look_owed _).bind fun now => ?_
      refine Prog.All.handle (Prog.All.bind (write_owed fun _ => isPublicUpload_ne hkind) fun _ =>
        pure_owed _) fun e => ?_
      split
      · refine (read_owed _).bind fun raced => ?_
        split
        · exact ite_owed (fun _ => pure_owed _) fun _ => throw_owed _
        · exact throw_owed _
      · exact throw_owed _

end ArtifactService

namespace ProjectWorkspace

theorem prepare_bind_owed {request : CorpusImportRequest} {next : PreparedCorpus → Service α}
    (h : ∀ prepared, Prepared dep prepared → (next prepared).All (Owed dep)) :
    (prepare dep request >>= next).All (Owed dep) := by
  unfold prepare
  cases hprepared : prepareCorpus dep.nfc dep.sha256 dep.corpusLimits request with
  | ok prepared => exact h prepared ⟨_, _, hprepared⟩
  | error e => exact throw_owed e

theorem importCorpus_owed (who : WorkspaceActor) (projectId : Uuid) (name : String)
    (request : CorpusImportRequest) :
    (importCorpus dep who projectId name request).All (Owed dep) :=
  prepare_bind_owed fun _ hprepared => (look_owed _).bind fun _ => (look_owed _).bind fun _ =>
    write_owed fun _ => hprepared

theorem importVersion_owed (who : WorkspaceActor) (projectId corpusId : Uuid)
    (request : CorpusImportRequest) (operation : String) :
    (importVersion dep who projectId corpusId request operation).All (Owed dep) :=
  prepare_bind_owed fun _ hprepared => (look_owed _).bind fun _ => (look_owed _).bind fun _ =>
    write_owed fun _ => hprepared

end ProjectWorkspace

/-! ## Programs that rely on what they read -/

/-- The program pays what it owes, whatever it answers. -/
def Safe (dep : Deployment) (calls : Calls) (p : Service α)
    (past : List (Event (system dep calls))) (w : World) : Prop :=
  Sat (base dep calls) (fun _ _ _ => True) (fun _ _ _ => True) p past w

section Safe

variable {p : Service α} {past : List (Event (system dep calls))} {w : World}

theorem All.safe (h : p.All (Owed dep)) (past : List (Event (system dep calls))) (w : World) :
    Safe dep calls p past w :=
  Sat.all (C := base dep calls) (fun _ _ _ v ho _ _ => ho v) h past w

theorem Safe.bind {f : α → Service β} (hi : w.Inv dep) (hp : Safe dep calls p past w)
    (hf : ∀ a past u, w.Later u → u.Inv dep → Safe dep calls (f a) past u) :
    Safe dep calls (p >>= f) past w :=
  Sat.bind (C := base dep calls) hi ((Sat.tracked (C := base dep calls) hi hp).mono
    (fun a past u h => hf a past u h.2.1 h.2.2) fun _ _ _ _ => trivial)

theorem Safe.handle {handler : Error → Service α} (hi : w.Inv dep)
    (hp : Safe dep calls p past w) (hf : ∀ e, (handler e).All (Owed dep)) :
    Safe dep calls (p.handle handler) past w :=
  Sat.handle (C := base dep calls) hi (Sat.mono (C := base dep calls) (fun _ _ _ _ => trivial)
    (fun e past u _ => All.safe (hf e) past u) hp)

theorem write_safe {action : Action α} (h : ∀ v, w.Later v → v.Inv dep → action.Owes dep v) :
    Safe dep calls (write action) past w :=
  Sat.perform (C := base dep calls) (fun v hv hiv _ => h v hv hiv)
    (fun _ _ _ _ _ _ _ _ _ _ => trivial) fun _ _ _ _ _ _ _ _ _ => trivial

end Safe

/-! ### Submissions -/

namespace JobControlPlane

theorem submitInSession_safe (s : NewSubmission) {past : List (Event (system dep calls))}
    {w : World} (hi : w.Inv dep) : Safe dep calls (submitInSession dep s) past w := by
  refine Safe.bind hi (All.safe (read_owed _) _ _) fun existing _ u _ hiu => ?_
  cases existing with
  | some result => exact All.safe (pure_owed _) _ _
  | none =>
    refine Sat.require (fun _ => ?_) fun _ _ _ => trivial
    refine Safe.bind hiu (All.safe (read_owed _) _ _) fun _ _ v _ hiv => ?_
    refine Safe.bind hiv (All.safe (read_owed _) _ _) fun _ _ x _ hix => ?_
    refine sat_read (C := base dep calls) hix (fun _ _ => trivial)
      (fun y _ db z _ _ hiy hret hz hiz => ?_) fun _ _ _ _ _ _ _ _ _ => trivial
    -- the link was checked in `y`; it still holds where the run is inserted
    have hlinked := (authorizeCorpusLineage_returns hiy.db hret).later hz.db
    refine Safe.bind hiz (All.safe (look_owed _) _ _) fun _ _ x hx hix => ?_
    refine Safe.bind hix (All.safe (look_owed _) _ _) fun _ _ y hy _ => ?_
    exact write_safe fun t ht _ => hlinked.later ((hx.trans hy).trans ht).db

theorem submit_safe (who : JobActor) (submission : RunSubmission) (key : String) {w : World}
    {past : List (Event (system dep calls))} (hi : w.Inv dep) :
    Safe dep calls (submit dep who submission key) past w := by
  refine Sat.require (fun _ => Sat.found (fun spec _ => ?_) fun _ _ _ => trivial) fun _ _ _ => trivial
  refine Safe.bind hi (All.safe (read_owed _) _ _) fun role _ u _ hiu => ?_
  refine Sat.require (fun _ => ?_) fun _ _ _ => trivial
  exact Safe.bind hiu (All.safe (read_owed _) _ _) fun _ _ v _ hiv => submitInSession_safe _ hiv

theorem retry_safe (who : JobActor) (runId : Uuid) (key : String) {w : World}
    {past : List (Event (system dep calls))} (hi : w.Inv dep) :
    Safe dep calls (retry dep who runId key) past w := by
  refine Sat.require (fun _ => ?_) fun _ _ _ => trivial
  refine Safe.bind hi (All.safe (read_owed _) _ _) fun role _ u _ hiu => ?_
  refine Sat.require (fun _ => ?_) fun _ _ _ => trivial
  refine Safe.bind hiu (All.safe (read_owed _) _ _) fun source _ v _ hiv => ?_
  exact Sat.require (fun _ => submitInSession_safe _ hiv) fun _ _ _ => trivial

end JobControlPlane

/-! ### Progress -/

/-- A run at the number that was read has the events it had then. -/
theorem DurableRunStore.eventsAt {db db' : Db} (hlog : RunLog db.nextId db.runs db.runEvents)
    (hlog' : RunLog db'.nextId db'.runs db'.runEvents) (hl : db.Later db') {id : Uuid}
    {run run' : Run} (hrun : db.runs.lookup id = some run) (hrun' : db'.runs.lookup id = some run')
    (hseq : run'.eventSequence = run.eventSequence) {n : Nat} {e : RunEvent}
    (he : db'.runEvents.lookup (id, n) = some e) : db.runEvents.lookup (id, n) = some e := by
  have hpresent : ((runRecord db'.runEvents id run').entry n).isSome := by
    simp only [runRecord, he, Option.map_some, Option.isSome_some]
  have hrange := ((hlog'.consistent hrun').dense n).mp hpresent
  have hold := ((hlog.consistent hrun).dense n).mpr
    ⟨hrange.1, hrange.2.trans (Nat.le_of_eq hseq)⟩
  simp only [runRecord, Option.isSome_map] at hold
  obtain ⟨old, hold⟩ := Option.isSome_iff_exists.mp hold
  rw [hl.events hold (hlog.fresh _ _ hrun) hrun'] at he
  rw [hold, ← he]

namespace DurableRunStore

theorem before_trans {a b c : EventPayload} (h : a.Before b) (h' : b.Before c) :
    a.Before c := by
  obtain ⟨x, s, y, t, ha, hb, hlt⟩ := h
  obtain ⟨y', t', z, u, hb', hc, hlt'⟩ := h'
  rw [hb] at hb'
  cases hb'
  refine ⟨x, s, z, u, ha, hc, ?_⟩
  omega

/-- A report that is not stale comes after the latest one. -/
theorem before_of_isStaleProgress {activityAttempt : Nat} {progress : DurableRunProgress}
    {latest : RunEvent} (h : isStaleProgress activityAttempt progress (some latest) = some false) :
    latest.payload.Before (progressPayload activityAttempt progress) := by
  unfold isStaleProgress at h
  obtain ⟨attempt, hattempt, h⟩ := Option.bind_eq_some_iff.mp h
  obtain ⟨reported, hreported, h⟩ := Option.bind_eq_some_iff.mp h
  have hfalse : (decide (activityAttempt < attempt) || (activityAttempt == attempt &&
      decide (progress.sequence ≤ reported.sequence))) = false := Option.some.inj h
  simp only [Bool.or_eq_false_iff, Bool.and_eq_false_iff, decide_eq_false_iff_not,
    beq_eq_false_iff_ne] at hfalse
  refine ⟨attempt, reported.sequence, activityAttempt, progress.sequence, ?_, rfl, ?_⟩
  · simp only [EventPayload.mark, hattempt, hreported, Option.bind_eq_bind, Option.bind_some]
    rfl
  · omega

/-- What `record_progress` has read before its compare-and-set. -/
theorem reports_of_reads {u v w : World} (hiu : u.Inv dep) (hiv : v.Inv dep) (hiw : w.Inv dep)
    (huv : u.db.Later v.db) (hvw : v.db.Later w.db) {reference : RunWorkflowReference} {run : Run}
    {latest : Option RunEvent} {db db' : Db} {activityAttempt : Nat} {progress : DurableRunProgress}
    (hread : Returns (readRun reference) u.db run db)
    (hlatest : Returns (latestProgress reference.organizationId reference.runId) v.db latest db')
    (hstale : isStaleProgress activityAttempt progress latest = some false) :
    Reports w.db reference run (progressPayload activityAttempt progress) := by
  refine ⟨rfl, fun run' hrow' hseq n e he hprogress => ?_⟩
  obtain ⟨hrun, -⟩ := Db.run?_some (readRun_returns hread).1
  obtain ⟨hrun', horg⟩ := Db.run?_some hrow'
  have hold := eventsAt hiu.db.log hiw.db.log (huv.trans hvw) hrun hrun' hseq he
  have hid := hiu.db.log.fresh _ _ hrun
  obtain ⟨mid, hmid, -⟩ := hvw.runs _ _ hrun' (Nat.lt_of_lt_of_le hid huv.next)
  have hthen := huv.events hold hid hmid
  have howner : e.organizationId = reference.organizationId := by
    obtain ⟨owner, howner, ho⟩ := hiw.db.log.owned he
    rw [hrun'] at howner
    cases howner
    exact ho.trans horg
  obtain ⟨m, l, rfl, hl, hlp, hle⟩ := (latestProgress_returns hlatest).2 hthen howner hprogress
  have hnew := before_of_isStaleProgress hstale
  rcases Nat.eq_or_lt_of_le hle with rfl | hlt
  · rw [hthen] at hl
    cases hl
    exact hnew
  · exact before_trans (hiv.progress.ordered hthen hprogress hl hlp hlt) hnew

theorem recordProgress_safe (reference : RunWorkflowReference) (activityAttempt : Nat)
    (progress : DurableRunProgress) {past : List (Event (system dep calls))} {w : World}
    (hi : w.Inv dep) : Safe dep calls (recordProgress reference activityAttempt progress) past w := by
  refine Sat.require (fun _ => ?_) fun _ _ _ => trivial
  generalize maxCasAttempts = attempts
  induction attempts generalizing past w with
  | zero => exact Sat.raise fun _ _ _ => trivial
  | succ attempts ih =>
    refine sat_read (C := base dep calls) hi (fun _ _ => trivial)
      (fun u run _ v _ _ hiu hread huv hiv => ?_) fun _ _ _ _ _ _ _ _ _ => trivial
    split
    · refine sat_read (C := base dep calls) hiv (fun _ _ => trivial)
        (fun x latest _ y _ hvx hix hlatest hxy hiy => ?_) fun _ _ _ _ _ _ _ _ _ => trivial
      refine Sat.found (fun stale hstale => ?_) fun _ _ _ => trivial
      cases stale with
      | true => exact Sat.ret fun _ _ _ => trivial
      | false =>
        have hreports (z : World) (hyz : y.Later z) (hiz : z.Inv dep) :=
          reports_of_reads hiu hix hiz (huv.trans hvx).db (hxy.trans hyz).db hread hlatest hstale
        refine sat_write (C := base dep calls) hiy (fun z hz hiz _ => hreports z hz hiz)
          (fun _ changed _ _ _ _ _ _ _ _ _ hit => ?_) fun _ _ _ _ _ _ _ _ _ => trivial
        cases changed with
        | true => exact Sat.ret fun _ _ _ => trivial
        | false => exact ih hit
    · exact Sat.ret fun _ _ _ => trivial

end DurableRunStore

/-! ### Expiry -/

/-- The reservation, as long as it exists, is of this run. -/
def ReservedFor (db : Db) (reservationId organizationId runId : Uuid) : Prop :=
  reservationId < db.nextId ∧ ExpiryCandidate db reservationId organizationId runId

theorem ReservedFor.later {db db' : Db} {rid org runId : Uuid} (h : ReservedFor db rid org runId)
    (hl : db.Later db') : ReservedFor db' rid org runId := by
  refine ⟨Nat.lt_of_lt_of_le h.1 hl.next, fun r' hr' => ?_⟩
  obtain ⟨r, hr, hlater⟩ := hl.reservations rid r' hr' h.1
  rw [hlater.organizationId, hlater.runId]
  exact h.2 r hr

theorem staleReservations_reserved {db : Db} (hi : db.Inv) {cutoff : Instant} {limit : Nat}
    {c : Uuid × Uuid × Uuid} (h : c ∈ db.staleReservations cutoff limit) :
    ReservedFor db c.1 c.2.1 c.2.2 := by
  obtain ⟨e, he, rfl⟩ := List.mem_map.mp h
  have hrow := (Table.mem_select.mp ((List.mem_insertionSort _).mp (List.mem_of_mem_take he))).1
  refine ⟨hi.reserved.fresh _ _ hrow, fun r hr => ?_⟩
  rw [hrow] at hr
  cases hr
  exact ⟨rfl, rfl⟩

theorem QuotaManager.expireAll_safe {cutoff : Instant} {stale : List (Uuid × Uuid × Uuid)}
    {past : List (Event (system dep calls))} {w : World} (hi : w.Inv dep)
    (h : ∀ c ∈ stale, ReservedFor w.db c.1 c.2.1 c.2.2) :
    Safe dep calls (expireAll cutoff stale) past w := by
  induction stale generalizing past w with
  | nil => exact All.safe (pure_owed 0) _ _
  | cons c stale ih =>
    have hc := h c List.mem_cons_self
    have hrest := fun c' hc' => h c' (List.mem_cons_of_mem _ hc')
    refine Safe.bind hi (All.safe (look_owed _) _ _) fun now _ u hu hiu => ?_
    refine Safe.bind hiu (write_safe fun v hv _ => (hc.later (hu.trans hv).db).2)
      fun expired _ v hv hiv => ?_
    refine Safe.bind hiv (ih hiv fun c' hc' => (hrest c' hc').later (hu.trans hv).db)
      fun later _ _ _ _ => ?_
    exact All.safe (pure_owed _) _ _

theorem QuotaManager.expireStale_safe {limit : Nat} {past : List (Event (system dep calls))}
    {w : World} (hi : w.Inv dep) : Safe dep calls (expireStale limit) past w := by
  unfold expireStale Prog.require
  split
  · refine sat_look (C := base dep calls) hi (fun _ => trivial) fun v u _ _ _ _ hiu => ?_
    refine sat_look (C := base dep calls) hiu (fun _ => trivial) fun x y _ _ hix hy hiy => ?_
    exact expireAll_safe hiy fun c hc => (staleReservations_reserved hix.db hc).later hy.db
  · exact All.safe (throw_owed _) _ _

/-! ### Purges -/

theorem ArtifactService.purgeCandidates_rows {db db' : Db} {cutoff : Instant} {limit : Nat}
    {rows : List (Uuid × Artifact)} (h : Returns (purgeCandidates cutoff limit) db rows db') :
    ∀ e ∈ rows, db.artifacts.lookup e.1 = some e.2 ∧ e.2.state = .tombstoned ∧
      e.2.retentionUntil ≤ cutoff := by
  obtain ⟨x, db₁, hget, h⟩ := h.bind
  obtain ⟨rfl, rfl⟩ := hget.get
  obtain ⟨rfl, -⟩ := h.pure
  intro e he
  have hrow := Table.mem_select.mp ((List.mem_insertionSort _).mp (List.mem_of_mem_take he))
  simpa using hrow

theorem ArtifactService.purgeAll_safe {cutoff : Instant} {rows : List (Uuid × Artifact)}
    {past : List (Event (system dep calls))} {w : World} (hi : w.Inv dep)
    (h : ∀ e ∈ rows, PurgeRead w e.1 e.2 cutoff) :
    Safe dep calls (purgeAll cutoff rows) past w := by
  induction rows generalizing past w with
  | nil => exact All.safe (pure_owed 0) _ _
  | cons e rows ih =>
    have he := h e List.mem_cons_self
    have hrest := fun e' he' => h e' (List.mem_cons_of_mem _ he')
    refine Safe.bind (p := purgeOne e.1 e.2 cutoff) hi ?_ fun purged _ u hu hiu => ?_
    · refine Safe.handle hi ?_ fun e => ite_owed (fun _ => pure_owed _) fun _ => throw_owed _
      refine sat_ask (C := base dep calls) hi (fun v hv _ _ => he.evolve hv.db hv.now)
        (fun v _ v' u _ hv _ _ hret _ hu hiu => ?_) fun _ _ _ _ _ _ _ _ _ => trivial
      have hrow := (he.row.evolve hv.db)
      rw [← Request.db_eq hret] at hrow
      refine Safe.bind hiu (All.safe (look_owed _) _ _) fun now _ x hx _ => ?_
      exact write_safe fun y hy _ => (hrow.evolve ((hu.trans hx).trans hy).db).candidate
    · refine Safe.bind hiu (ih hiu fun e' he' => (hrest e' he').evolve hu.db hu.now)
        fun _ _ _ _ _ => ?_
      exact All.safe (pure_owed _) _ _

theorem ArtifactService.purgeDue_safe {limit : Nat} {past : List (Event (system dep calls))}
    {w : World} (hi : w.Inv dep) : Safe dep calls (purgeDue limit) past w := by
  refine sat_look (C := base dep calls) hi (fun _ => trivial) fun t u _ _ _ hu hiu => ?_
  refine sat_read (C := base dep calls) hiu (fun _ _ => trivial)
    (fun v rows db x _ hv hiv hret hx hix => ?_) fun _ _ _ _ _ _ _ _ _ => trivial
  refine purgeAll_safe hix fun e he => ?_
  obtain ⟨hrow, hdead, hdue⟩ := purgeCandidates_rows hret e he
  have hread : PurgeRead v e.1 e.2 t.now :=
    ⟨.of_lookup hiv.db hiv.lifecycle hiv.storage hrow, hdead, hdue, hu.now.trans hv.now⟩
  exact hread.evolve hx.db hx.now

/-! ### Reconciliations -/

theorem ArtifactService.reconciliationPage_orphans {artifacts : Table Uuid Artifact}
    {keys : List String} {cursor : Option String} {limit : Nat} {key : String}
    (h : key ∈ (reconciliationPage artifacts keys cursor limit).orphans) {id : Uuid}
    {row : Artifact} (hrow : artifacts.lookup id = some row) : row.storageKey.render ≠ key := by
  intro hkey
  obtain ⟨hmem, hout⟩ := List.mem_filter.mp h
  have hentry : (id, row) ∈ artifacts.rows := Table.mem_rows.mpr hrow
  have hin : key ∈ (reconciliationPage artifacts keys cursor limit).referenced :=
    List.mem_filter.mpr ⟨hmem, List.any_eq_true.mpr ⟨_, hentry, beq_iff_eq.mpr hkey⟩⟩
  rw [List.contains_iff_mem.mpr hin] at hout
  cases hout

theorem ArtifactService.collectAll_safe {seen : Db} {orphanCutoff : Instant} {keys : List String}
    {past : List (Event (system dep calls))} {w : World} (hi : w.Inv dep)
    (h : ∀ key ∈ keys, CollectRead w key seen) :
    Safe dep calls (collectAll seen orphanCutoff keys) past w := by
  induction keys generalizing past w with
  | nil => exact All.safe (pure_owed 0) _ _
  | cons key keys ih =>
    refine Safe.bind hi (Safe.handle hi ?_ fun e => ite_owed (fun _ => pure_owed _)
      fun _ => throw_owed _) fun collected _ u hu hiu => ?_
    · refine Safe.bind hi (All.safe (look_owed _) _ _) fun object _ u hu hiu => ?_
      refine Safe.bind hiu (All.safe .found _ _) fun object _ v hv hiv => ?_
      split
      · exact All.safe (pure_owed _) _ _
      · refine Safe.bind hiv (Sat.perform (C := base dep calls) (fun x hx _ _ => ?_)
          (fun _ _ _ _ _ _ _ _ _ _ => trivial) fun _ _ _ _ _ _ _ _ _ => trivial)
          fun _ _ _ _ _ => All.safe (pure_owed _) _ _
        exact (h key List.mem_cons_self).evolve ((hu.trans hv).trans hx).db
    · refine Safe.bind hiu (ih hiu fun other hother => ?_) fun _ _ _ _ _ => ?_
      · exact (h other (List.mem_cons_of_mem _ hother)).evolve hu.db
      · exact All.safe (pure_owed _) _ _

theorem ArtifactService.reconcileOrphans_safe {cursor : Option String} {limit : Nat}
    {past : List (Event (system dep calls))} {w : World} (hi : w.Inv dep) :
    Safe dep calls (reconcileOrphans dep cursor limit) past w := by
  refine Safe.bind hi (All.safe .require _ _) fun _ _ u _ hiu => ?_
  refine Safe.bind hiu (All.safe (look_owed _) _ _) fun keys _ v _ hiv => ?_
  refine sat_look (C := base dep calls) hiv (fun _ => trivial) fun x y _ _ _ hy hiy => ?_
  refine Safe.bind hiy (All.safe (look_owed _) _ _) fun now _ z hz hiz => ?_
  refine Safe.bind hiz (collectAll_safe hiz fun key hkey => ?_) fun _ _ _ _ _ => ?_
  · exact ⟨(hy.trans hz).db, reconciliationPage_orphans hkey⟩
  · exact All.safe (pure_owed _) _ _

theorem ProjectDeletion.purgeAll_safe {cutoff : Instant} {due : List (Uuid × Uuid)}
    {past : List (Event (system dep calls))} {w : World} (hi : w.Inv dep) (h : cutoff ≤ w.now) :
    Safe dep calls (purgeAll cutoff due) past w := by
  induction due generalizing past w with
  | nil => exact All.safe (pure_owed 0) _ _
  | cons c due ih =>
    refine Safe.bind hi (Safe.handle hi ?_ fun e => ite_owed (fun _ => pure_owed _)
      fun _ => throw_owed _) fun purged _ u hu hiu => ?_
    · refine sat_read (C := base dep calls) hi (fun _ _ => trivial)
        (fun x due db u _ hx hix hret hu hiu => ?_) fun _ _ _ _ _ _ _ _ _ => trivial
      cases due with
      | none => exact All.safe (pure_owed _) _ _
      | some n =>
        obtain ⟨project, -, -, hproject, -⟩ := dueProject_some ((ready_returns hret).2 n rfl).1
        have hknown := Nat.lt_of_lt_of_le (hix.db.projects _ _ hproject) hu.db.next
        refine Safe.bind hiu (All.safe (look_owed _) _ _) fun stored _ v hv _ => ?_
        split
        · exact All.safe (pure_owed _) _ _
        · refine write_safe fun y hy _ => ⟨h.trans (((hx.trans hu).trans hv).trans hy).now, ?_⟩
          exact Nat.lt_of_lt_of_le hknown (hv.trans hy).db.next
    · refine Safe.bind hiu (ih hiu (h.trans hu.now)) fun _ _ _ _ _ => ?_
      exact All.safe (pure_owed _) _ _

theorem ProjectDeletion.purgeDue_safe {limit : Nat} {past : List (Event (system dep calls))}
    {w : World} (hi : w.Inv dep) : Safe dep calls (purgeDue limit) past w := by
  unfold purgeDue Prog.require
  split
  · refine sat_look (C := base dep calls) hi (fun _ => trivial) fun v u _ _ _ hu hiu => ?_
    refine Safe.bind hiu (All.safe (read_owed _) _ _) fun due _ x hx hix => ?_
    exact purgeAll_safe hix (hu.trans hx).now
  · exact All.safe (throw_owed _) _ _

/-! ### Dispatch -/

theorem TransactionalOutbox.publishAll_safe {workerId : String} {reaches : DispatchMessage → Bool}
    {messages : List DispatchMessage} {past : List (Event (system dep calls))} {w : World}
    (hi : w.Inv dep) : Safe dep calls (publishAll workerId reaches messages) past w := by
  induction messages generalizing past w with
  | nil => exact All.safe (pure_owed (0, 0)) _ _
  | cons message messages ih =>
    unfold publishAll
    split
    · refine sat_ask (C := base dep calls) hi (fun _ _ _ _ => trivial)
        (fun v b v' u _ _ _ _ hret _ hu hiu => ?_) fun _ _ _ _ _ _ _ _ _ => trivial
      have hdelivered : message.id ∈ u.delivered := hu.delivered (by
        rw [publish_returns hret]
        exact List.mem_cons_self)
      refine Safe.bind hiu (All.safe (look_owed _) _ _) fun now _ x hx hix => ?_
      refine Safe.bind hix (write_safe fun y hy _ => (hx.trans hy).delivered hdelivered)
        fun _ _ y _ hiy => ?_
      exact Safe.bind hiy (ih hiy) fun _ _ _ _ _ => All.safe (pure_owed _) _ _
    · refine Safe.bind hi (All.safe (look_owed _) _ _) fun now _ x _ hix => ?_
      refine Safe.bind hix (write_safe fun _ _ _ => trivial) fun _ _ y _ hiy => ?_
      exact Safe.bind hiy (ih hiy) fun _ _ _ _ _ => All.safe (pure_owed _) _ _

theorem TransactionalOutbox.touchAll_owed (expired : Instant) (ids : List Uuid) :
    (touchAll expired ids).All (Owed dep) := by
  induction ids with
  | nil => exact pure_owed _
  | cons id ids ih =>
    exact (read_owed _).bind fun hit => ih.bind fun hits => pure_owed _

theorem TransactionalOutbox.claim_owed (workerId : String) (limit : Nat) (lease : Duration) :
    (claim workerId limit lease).All (Owed dep) := by
  refine Prog.All.bind .require fun _ => (look_owed _).bind fun now => ?_
  refine (read_owed _).bind fun ids => (touchAll_owed _ _).bind fun hits => ?_
  exact write_owed fun _ => trivial

theorem TransactionalOutbox.dispatchBatch_safe {workerId : String} {limit : Nat}
    {reaches : DispatchMessage → Bool} {past : List (Event (system dep calls))} {w : World}
    (hi : w.Inv dep) : Safe dep calls (dispatchBatch dep workerId limit reaches) past w := by
  refine Safe.bind hi (All.safe (claim_owed _ _ _) _ _) fun messages _ u _ hiu => ?_
  refine Safe.bind hiu (publishAll_safe hiu) fun _ _ _ _ _ => All.safe (pure_owed _) _ _

/-! ## Every service -/

/-- A transaction that is only given the time. -/
theorem timed_safe {action : Instant → Action α} {past : List (Event (system dep calls))}
    {w : World} (hi : w.Inv dep) (h : ∀ now v, (action now).Owes dep v) :
    Safe dep calls (clock >>= fun now => write (action now)) past w :=
  Safe.bind hi (All.safe (look_owed _) _ _) fun now _ _ _ _ => write_safe fun v _ _ => h now v

theorem ServiceCall.safe (c : ServiceCall) {w : World} (hi : w.Inv dep) :
    Safe dep calls (c.prog dep) [] w := by
  cases c with
  | submit who submission key => exact JobControlPlane.submit_safe _ _ _ hi
  | retry who runId key => exact JobControlPlane.retry_safe _ _ _ hi
  | submitReplay who projectId sourceRunId key stored =>
    exact All.safe (RunManifestService.submitReplay_owed _ _ _ _ _) _ _
  | requestCancellation who runId =>
    exact All.safe (JobControlPlane.requestCancellation_owed _ _) _ _
  | prepare reference => exact All.safe (DurableRunStore.prepare_owed _) _ _
  | beginExecution reference => exact All.safe (DurableRunStore.beginExecution_owed _) _ _
  | recordExecution reference facts inputs => exact write_safe fun _ _ _ => trivial
  | recordProgress reference activityAttempt progress =>
    exact DurableRunStore.recordProgress_safe _ _ _ hi
  | complete reference summary => exact All.safe (DurableRunStore.complete_owed _ _) _ _
  | fail reference code => exact All.safe (DurableRunStore.fail_owed _ _) _ _
  | acknowledgeCancellation reference =>
    exact All.safe (DurableRunStore.acknowledgeCancellation_owed _) _ _
  | adopt reference claim => exact All.safe (ArtifactAdoptionService.adopt_owed _ _) _ _
  | commitAdoptedResult reference adopted =>
    exact All.safe (DurableRunStore.commitAdopted_owed _ _) _ _
  | finalize reference observed => exact All.safe (RunManifestService.finalize_owed _ _) _ _
  | expireStale limit => exact QuotaManager.expireStale_safe hi
  | updatePolicy organizationId policy requestId =>
    refine Safe.bind hi (All.safe (look_owed _) _ _) fun current _ u _ hiu => ?_
    exact timed_safe hiu fun _ _ => trivial
  | ensureTenant organizationId => exact write_safe fun _ _ _ => trivial
  | createArtifact who upload => exact All.safe (ArtifactService.create_owed _ _) _ _
  | tombstone who projectId artifactId =>
    exact timed_safe hi fun _ _ => trivial
  | purgeArtifacts limit => exact ArtifactService.purgeDue_safe hi
  | reconcileOrphans cursor limit => exact ArtifactService.reconcileOrphans_safe hi
  | createProject who name =>
    exact timed_safe hi fun _ _ => trivial
  | createCorpus who projectId name request =>
    exact All.safe (ProjectWorkspace.importCorpus_owed _ _ _ _) _ _
  | createVersion who projectId corpusId request operation =>
    exact All.safe (ProjectWorkspace.importVersion_owed _ _ _ _ _) _ _
  | requestDeletion who projectId confirmation =>
    exact timed_safe hi fun _ _ => trivial
  | purgeProjects limit => exact ProjectDeletion.purgeDue_safe hi
  | dispatchBatch workerId limit reaches => exact TransactionalOutbox.dispatchBatch_safe hi

/-! ## Runs -/

def World.initial (memberships : List Membership) : World where
  db := .initial memberships
  objects := ∅
  now := 0
  available := true
  delivered := []
  signalled := []

theorem World.inv_initial (dep : Deployment) (memberships : List Membership) :
    (World.initial memberships).Inv dep :=
  ⟨Db.inv_initial _, Db.lifecycle_initial _, Db.history_initial _, Db.lineage_initial _,
    Db.storage_initial _, Db.progress_initial _, Db.cancellations_initial _⟩

/-- The configurations any run of the services comes through. -/
abbrev ServiceConfig (dep : Deployment) := Config (system dep (services dep))

variable {G : Guard (system dep (services dep))} {memberships : List Membership}
  {cfg cfg' : ServiceConfig dep}

/-- Every operation of a run is paid for, and the invariants hold where it happens. -/
theorem lawful_run (h : Reachable G (World.initial memberships) cfg)
    (hrun : Relation.ReflTransGen (Step G) cfg cfg') :
    Relation.ReflTransGen (Step ((base dep (services dep)).lawful G)) cfg cfg' :=
  (base dep (services dep)).strengthen _ _ (fun _ _ => trivial) (fun c _ hi => c.safe hi) h
    (World.inv_initial dep memberships) hrun

theorem lawful_reachable (h : Reachable G (World.initial memberships) cfg) :
    Reachable ((base dep (services dep)).lawful G) (World.initial memberships) cfg :=
  lawful_run .refl h

theorem reachable_inv (h : Reachable G (World.initial memberships) cfg) : cfg.world.Inv dep :=
  ((base dep (services dep)).sound _ _ (fun _ _ => trivial) (fun c _ hi => c.safe hi) h
    (World.inv_initial dep memberships)).1

/-- The obligations of the operations a run has performed. -/
theorem events_owed (h : Reachable G (World.initial memberships) cfg) :
    ∀ j ∈ cfg.jobs, ∀ e ∈ j.history, e.before.Inv dep ∧ e.op.Owes dep e.before ∧
      e.after = (commit (e.op.exec dep) e.before).2 :=
  events_hold (fun _ _ _ hG => ⟨hG.2.1, hG.2.2, rfl⟩) (lawful_reachable h)

/-- The world moves on along every run. -/
theorem run_later (h : Reachable G (World.initial memberships) cfg)
    (hrun : Relation.ReflTransGen (Step G) cfg cfg') : cfg.world.Later cfg'.world := by
  have hrespects : Respects ((base dep (services dep)).lawful G) (World.Inv dep) :=
    ⟨fun hi hG hret => (Op.keeps hi hG.2.2 hret).1, fun hi => (Tick.keeps _ hi).1⟩
  have hevolves : Evolves ((base dep (services dep)).lawful G) (World.Inv dep) World.Later :=
    ⟨World.Later.refl, World.Later.trans, fun hi hG hret => (Op.keeps hi hG.2.2 hret).2,
      fun hi => (Tick.keeps _ hi).2⟩
  exact hevolves.steps hrespects (lawful_run h hrun) (reachable_inv h)

/-- What the calls have done is of the past of the present world. -/
theorem past_later (h : Reachable G (World.initial memberships) cfg) :
    ∀ j ∈ cfg.jobs, ∀ e ∈ j.history, e.after.Later cfg.world :=
  events_later (R := World.Later) World.Later.refl World.Later.trans
    (fun hs hstep => run_later hs (.single hstep)) h

/-- The contract of a run in which everybody pays: what a call answers is checked
against the others' payments, and owes nothing more. -/
def paid (dep : Deployment) (calls : Calls) : Contract (system dep calls) where
  inv := World.Inv dep
  evolve := World.Later
  may := fun _ o w => Op.Owes dep w o
  must := fun _ _ _ _ => True
  refl := World.Later.refl
  trans := World.Later.trans
  op := fun hi howes _ h => Op.keeps hi howes h
  tick := fun hi => Tick.keeps _ hi

/-- What every call of a kind guarantees when it answers holds from then on. -/
theorem answers_hold (Q : (c : ServiceCall) → c.Value → World → Prop)
    (hprog : ∀ c w, w.Inv dep → Sat (paid dep (services dep)) (fun a _ u => Q c a u)
      (fun _ _ _ => True) (c.prog dep) [] w)
    (h : Reachable G (World.initial memberships) cfg) {j : Job (system dep (services dep))}
    (hj : j ∈ cfg.jobs) {a : j.call.Value} (ha : j.Returned a) : Q j.call a cfg.world :=
  have hsound := (paid dep (services dep)).sound (fun c a _ u => Q c a u) (fun _ _ _ _ => True)
    (fun _ hG => hG.2.2) hprog (lawful_reachable h) (World.inv_initial dep memberships)
  (hsound.2 j hj _ ha).returned rfl hsound.1

/-! ## A small deployment -/

/-- A deployment that admits every run, for executed schedules. -/
def Deployment.small : Deployment where
  nfc := fun text => text
  sha256 := fun _ => 0
  admits := fun _ _ => true
  corpusLimits := ⟨100, 100⟩
  artifactRetention := seconds (30 * 24 * 60 * 60)
  orphanGrace := seconds (60 * 60)
  projectRetention := ProjectDeletion.minimumProjectRetention
  leaseDuration := seconds 60

abbrev Small : Machine := system .small (services .small)

/-- One owner of one organization. -/
def smallMembers : List Membership := [⟨1, "owner", 2, .owner⟩]

def smallStart : Config Small := Config.init (M := Small) (World.initial smallMembers)

/-- Run schedules from the start. -/
def smallRun (schedule : List (Move Small)) : Option (Config Small) := run smallStart schedule

theorem smallRun_reachable {schedule : List (Move Small)} {cfg : Config Small}
    (h : smallRun schedule = some cfg) :
    Reachable (M := Small) free (World.initial smallMembers) cfg := run_reachable h

/-- The configuration that a schedule leads to, which passes a check. -/
structure Sampled {M : Machine} (result : Option (Config M)) (check : Config M → Bool) where
  cfg : Config M
  run : result = some cfg
  checked : check cfg = true

def Sampled.of {M : Machine} {result : Option (Config M)} {check : Config M → Bool}
    (h : result.any check = true) : Sampled result check where
  cfg := result.get (Option.isSome_of_any h)
  run := (Option.some_get _).symm
  checked := Option.get_of_any_eq_true _ _ h

/-- The tenant's rows and a project, number 0, of calls 0 and 1. -/
def smallProject : List (Move Small) :=
  [.start (ServiceCall.ensureTenant 1), .act 0,
    .start (ServiceCall.createProject ⟨"owner", 1, none⟩ "project"), .act 1, .act 1]

/-- The latest operation of a job. -/
def smallStep (i : Nat) (schedule : List (Move Small)) : Option (Event Small) :=
  (smallRun schedule).bind fun cfg => (cfg.jobs[i]?).bind fun j => j.history.head?

theorem smallStep_mem {i : Nat} {schedule : List (Move Small)} {e : Event Small}
    (h : smallStep i schedule = some e) :
    ∃ cfg, Reachable (M := Small) free (World.initial smallMembers) cfg ∧
      ∃ j ∈ cfg.jobs, e ∈ j.history := by
  obtain ⟨cfg, hrun, h⟩ := Option.bind_eq_some_iff.mp h
  obtain ⟨j, hj, he⟩ := Option.bind_eq_some_iff.mp h
  exact ⟨cfg, smallRun_reachable hrun, j, List.mem_of_getElem? hj, List.mem_of_head? he⟩

/-- Call 2 uploads a text to project 0: it reads its scope and looks for a duplicate,
then stores the object. -/
def smallUpload : Move Small := .start (ServiceCall.createArtifact ⟨"owner", 1, none⟩
  ⟨0, none, .corpusText, 7, 10, "text/plain", "notes.txt"⟩)

/-- The key of the text. -/
def smallKey : StorageKey := artifactStorageKey 1 0 none .corpusText 7

/-- Artifact 1, uploaded by call 2 and tombstoned by call 3. -/
def smallTombstone : List (Move Small) :=
  smallProject ++ smallUpload :: acts Small 2 7 ++
    .start (ServiceCall.tombstone ⟨"owner", 1, none⟩ 0 1) :: acts Small 3 2

def smallSpec : RunSpec := ⟨5, .core⟩

/-- A run, number 1, submitted by call 2. -/
def smallSubmission : List (Move Small) :=
  smallProject ++ .start (ServiceCall.submit ⟨"owner", 1, none⟩ ⟨0, .distribution, some smallSpec, none⟩
    "key") :: acts Small 2 9

/-- The reference of the run of `smallSubmission`. -/
def smallReference : RunWorkflowReference := ⟨1, 1, 5⟩

end CorpusKit
