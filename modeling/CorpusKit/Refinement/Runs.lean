import CorpusKit.Refinement.Statements

/-! # The run services are changes

Every transaction on a run (transition, progress, adoption, expiry, cancellation,
submission and replay), once committed, is a sequence of changes. -/

namespace CorpusKit

open Transaction QuotaManager

variable {db db' : Db} {permit : Permit}

theorem Db.run?_some {org runId : Uuid} {run : Run} (h : db.run? org runId = some run) :
    db.runs.lookup runId = some run ∧ run.organizationId = org := by
  unfold Db.run? at h
  rw [Option.filter_eq_some_iff] at h
  simpa using h

/-- The one reservation of a run is the row the quota functions find. -/
theorem Db.Inv.ownReservation (h : db.Inv) {runId : Uuid} {run : Run}
    (hrun : db.runs.lookup runId = some run) :
    ∃ rid r, ownReservation db run.organizationId runId = some (rid, r) ∧ r.Holds run := by
  obtain ⟨rid, r, hr, hid, huniq⟩ := h.reserved.one hrun
  obtain ⟨owner, howner, hholds⟩ := h.reserved.owned hr
  rw [hid, hrun] at howner
  cases howner
  obtain ⟨⟨rid', r'⟩, hfound⟩ := Table.find_isSome
    (p := fun _ r => r.organizationId == run.organizationId && r.runId == runId) hr
    (by simp [hholds.org, hid])
  obtain ⟨hr', hmatch⟩ := Table.find_some hfound
  simp only [Bool.and_eq_true, beq_iff_eq] at hmatch
  obtain rfl := huniq rid' r' hr' hmatch.2
  rw [hr] at hr'
  cases hr'
  exact ⟨rid', r, hfound, hholds⟩

/-- Plain evidence is one change. -/
theorem append_change (permit : Permit) {org : Uuid} {actor : AuditIdentity} {action : AuditAction}
    {rtype : AuditResourceType} {rid : Uuid} {requestId : Option String}
    {metadata : List (String × AuditValue)} {now : Instant} {u : Unit}
    (hplain : (AuditEvent.mk actor action rtype rid requestId now metadata).isPlain = true)
    (hother : action ≠ .runCancellationRequested)
    (h : Returns (AuditWriter.append org actor action rtype rid requestId metadata now) db u db') :
    Change permit db db' := by
  obtain ⟨head, hhead, hfree, rfl⟩ := append_returns h
  exact .evidence _ hhead hfree hplain fun hcancel => absurd hcancel hother

/-- So is the evidence of a cancellation, once the run has its event. -/
theorem append_cancellation (permit : Permit) {org : Uuid} {actor : AuditIdentity} {rid : Uuid}
    {requestId : Option String} {now : Instant} {u : Unit} {n : Nat} {run : Run} {e : RunEvent}
    (hrun : db.runs.lookup rid = some run) (hn : 1 < n)
    (he : db.runEvents.lookup (rid, n) = some e) (hstate : e.payload.state = some .cancelling)
    (h : Returns (AuditWriter.append org actor .runCancellationRequested .run rid requestId
      [("prior_state", .text RunState.cancelling.value)] now) db u db') :
    Change permit db db' := by
  obtain ⟨head, hhead, hfree, rfl⟩ := append_returns h
  exact .evidence _ hhead hfree rfl fun _ => ⟨rfl, run, n, e, hrun, hn, he, hstate⟩

/-! ## Ending a run -/

/-- The database after a state change of a run and before its controls. -/
def Db.moved (db : Db) (runId : Uuid) (run run' : Run) (event : RunEvent) : Db :=
  { db with
    runs := db.runs.insert runId run'
    runEvents := db.runEvents.insert (runId, run.eventSequence + 1) event }

/-- A run that has just ended gives its reservation back. -/
theorem release_finishes (permit : Permit) (hi : db.Inv) {runId : Uuid} {run : Run} {target : RunState}
    {summary code askedAt} {event : RunEvent} {ending : QuotaReservationState} {now : Instant}
    {b : Bool} (hrun : db.runs.lookup runId = some run) (hmove : Moves run.state target)
    (hend : isTerminal target = true) (hcancel : run.state = .cancelling → target = .cancelled)
    (hask : AskedAt run target askedAt)
    (hfree : db.runEvents.lookup (runId, run.eventSequence + 1) = none)
    (horg : event.organizationId = run.organizationId) (hevent : event.payload.state = some target)
    (htitle : event.Titled target) (hending : ending ≠ .active)
    (h : Returns (releaseRun run.organizationId runId ending now)
      (db.moved runId run (run.moved target summary code askedAt) event) b db') :
    b = true ∧ Change permit db db' ∧
      db'.runs = db.runs.insert runId (run.moved target summary code askedAt) := by
  obtain ⟨rid, r, hown, hholds⟩ := hi.ownReservation hrun
  have hactive : r.state = .active := hholds.active.mpr (not_isTerminal_of_moves hmove)
  obtain ⟨-, -, hnone⟩ | ⟨rfl, rid', r', usage, hown', -, husage, rfl⟩ := releaseRun_returns h
  · exact absurd hactive (hnone rid r hown)
  · rw [show QuotaManager.ownReservation (db.moved runId run _ event) run.organizationId runId =
      some (rid, r) from hown] at hown'
    cases hown'
    obtain ⟨hr, hr_org, hr_run⟩ := ownReservation_some hown
    exact ⟨rfl, .finish hrun hmove hend hcancel hask hfree horg hevent hr ⟨hr_run, hr_org⟩ hactive
      hending husage htitle, rfl⟩

/-! ## Transitions -/

theorem RunEvent.titled_of {event : RunEvent} {target : RunState} {title : String}
    (htype : event.eventType = title) (hprogress : title ≠ "run.progress")
    (hstart : title = "run.started" ↔ target = .running) : event.Titled target := by
  unfold Titled isProgress isStart
  rw [htype]
  exact ⟨hprogress, hstart⟩

namespace DurableRunStore

/-- Every transition is called by its own name. -/
theorem Transition.titled (transition : Transition) (org : Uuid) :
    (RunEvent.mk org transition.eventType transition.payload).Titled transition.target := by
  cases transition <;> exact RunEvent.titled_of rfl (by simp [Transition.eventType])
    (by simp [Transition.eventType, Transition.target])

theorem commitTransition_returns {reference : RunWorkflowReference} {read : Run}
    {transition : Transition} {now : Instant} {b : Bool}
    (h : Returns (commitTransition reference read transition now) db b db') :
    (b = false ∧ db = db') ∨ (b = true ∧ ∃ run, db.runs.lookup reference.runId = some run ∧
      run.organizationId = reference.organizationId ∧ run.state = read.state ∧
      Moves run.state transition.target ∧
      db.runEvents.lookup (reference.runId, run.eventSequence + 1) = none ∧
      Returns (applyTransitionControls reference.organizationId reference.runId
        (run.moved transition.target transition.resultSummary transition.failureCode
          run.cancellationRequestedAt) transition.target transition.failureCode now)
        (db.moved reference.runId run (run.moved transition.target transition.resultSummary
          transition.failureCode run.cancellationRequestedAt)
          ⟨reference.organizationId, transition.eventType, transition.payload⟩) () db') := by
  unfold commitTransition at h
  obtain ⟨u, s, htrans, h⟩ := h.bind
  obtain ⟨hmove, rfl⟩ := ensureTransition_returns htrans
  obtain ⟨a, s, hget, h⟩ := h.bind
  obtain ⟨rfl, rfl⟩ := hget.get
  dsimp only at h
  split at h
  · obtain ⟨rfl, rfl⟩ := h.pure
    exact .inl ⟨rfl, rfl⟩
  · next run hhit =>
    rw [Option.filter_eq_some_iff] at hhit
    obtain ⟨hrow, hcas⟩ := hhit
    simp only [Bool.and_eq_true, beq_iff_eq] at hcas
    obtain ⟨hrun, horg⟩ := Db.run?_some hrow
    obtain ⟨u, s, hset, h⟩ := h.bind
    obtain rfl := setRun_returns hset
    obtain ⟨u, s, hadd, h⟩ := h.bind
    obtain ⟨hfree, rfl⟩ := addRunEvent_returns hadd
    obtain ⟨u, s, hcontrols, h⟩ := h.bind
    obtain ⟨rfl, rfl⟩ := h.pure
    exact .inr ⟨rfl, run, hrun, horg, hcas.1.2, hcas.1.2 ▸ hmove, hfree, hcontrols⟩

/-- A compare-and-set that hits moves the run to the target, and does nothing
else to runs. -/
theorem commitTransition_changes (hi : db.Inv) {reference : RunWorkflowReference} {read : Run}
    {transition : Transition} {now : Instant} {b : Bool}
    (hread : read.state ∈ transition.expected)
    (h : Returns (commitTransition reference read transition now) db b db') :
    Changes permit db db' ∧ ((b = false ∧ db = db') ∨ (b = true ∧ ∃ run,
      db.runs.lookup reference.runId = some run ∧ run.state = read.state ∧
      db'.runs = db.runs.insert reference.runId (run.moved transition.target
        transition.resultSummary transition.failureCode run.cancellationRequestedAt))) := by
  obtain ⟨rfl, rfl⟩ | ⟨rfl, run, hrun, horg, hstate, hmove, hfree, h⟩ := commitTransition_returns h
  · exact ⟨.refl, .inl ⟨rfl, rfl⟩⟩
  have hask : AskedAt run transition.target run.cancellationRequestedAt := .inl rfl
  rw [← hstate] at hread
  have hmoved (hlive : isTerminal transition.target = false) : Change permit db
      (db.moved reference.runId run (run.moved transition.target transition.resultSummary
        transition.failureCode run.cancellationRequestedAt)
        ⟨reference.organizationId, transition.eventType, transition.payload⟩) :=
    .move hrun hmove hlive hask hfree horg.symm rfl (transition.titled reference.organizationId)
  rw [← horg] at h hmoved
  cases transition with
  | prepare =>
    obtain ⟨-, rfl⟩ := h.pure
    exact ⟨.single (hmoved rfl), .inr ⟨rfl, run, hrun, hstate, rfl⟩⟩
  | beginExecution =>
    obtain ⟨renewed, s, hrenew, h⟩ := h.bind
    obtain ⟨-, rfl⟩ := h.require
    obtain ⟨-, rfl⟩ | ⟨rid, r, expiresAt, hr, rfl⟩ := renewRun_returns hrenew
    · exact ⟨.single (hmoved rfl), .inr ⟨rfl, run, hrun, hstate, rfl⟩⟩
    · exact ⟨.tail (.single (hmoved rfl)) (.renew hr), .inr ⟨rfl, run, hrun, hstate, rfl⟩⟩
  | complete summary =>
    obtain ⟨released, s, hrelease, h⟩ := h.bind
    obtain ⟨-, hfinish, hruns⟩ := release_finishes permit hi hrun hmove rfl
      (fun hc => by rw [hc] at hread; revert hread; simp [Transition.expected]) hask hfree rfl rfl
      (Transition.titled _ _) (by decide) hrelease
    have haudit := append_change permit (by rfl) (by decide) h
    obtain ⟨head, -, -, rfl⟩ := append_returns h
    exact ⟨.tail (.single hfinish) haudit, .inr ⟨rfl, run, hrun, hstate, hruns⟩⟩
  | fail code =>
    obtain ⟨released, s, hrelease, h⟩ := h.bind
    obtain ⟨-, hfinish, hruns⟩ := release_finishes permit hi hrun hmove rfl
      (fun hc => by rw [hc] at hread; revert hread; simp [Transition.expected]) hask hfree rfl rfl
      (Transition.titled _ _) (by decide) hrelease
    have haudit := append_change permit (by rfl) (by decide) h
    obtain ⟨head, -, -, rfl⟩ := append_returns h
    exact ⟨.tail (.single hfinish) haudit, .inr ⟨rfl, run, hrun, hstate, hruns⟩⟩
  | requestCancellation prior =>
    have haudit := append_cancellation permit (AList.lookup_insert _)
      (Nat.lt_succ_of_le (hi.log.consistent hrun).last_pos) (AList.lookup_insert _) rfl h
    obtain ⟨head, -, -, rfl⟩ := append_returns h
    exact ⟨.tail (.single (hmoved rfl)) haudit, .inr ⟨rfl, run, hrun, hstate, rfl⟩⟩
  | acknowledgeCancellation =>
    obtain ⟨released, s, hrelease, h⟩ := h.bind
    obtain ⟨-, hfinish, hruns⟩ := release_finishes permit hi hrun hmove rfl
      (fun _ => rfl) hask hfree rfl rfl (Transition.titled _ _) (by decide) hrelease
    have haudit := append_change permit (by rfl) (by decide) h
    obtain ⟨head, -, -, rfl⟩ := append_returns h
    exact ⟨.tail (.single hfinish) haudit, .inr ⟨rfl, run, hrun, hstate, hruns⟩⟩

/-- The database after a progress report. -/
def reported (db : Db) (reference : RunWorkflowReference) (run : Run) (payload : EventPayload) : Db :=
  db.moved reference.runId run { run with eventSequence := run.eventSequence + 1 }
    ⟨reference.organizationId, "run.progress", payload⟩

/-- A report is written where the run still runs at the number that was read. -/
theorem commitProgress_returns {reference : RunWorkflowReference} {read : Run}
    {payload : EventPayload} {b : Bool}
    (h : Returns (commitProgress reference read payload) db b db') :
    (b = false ∧ db = db') ∨ (b = true ∧ ∃ run,
      db.run? reference.organizationId reference.runId = some run ∧ run.state = .running ∧
      run.eventSequence = read.eventSequence ∧
      db.runEvents.lookup (reference.runId, run.eventSequence + 1) = none ∧
      db' = reported db reference run payload) := by
  unfold commitProgress at h
  obtain ⟨a, s, hget, h⟩ := h.bind
  obtain ⟨rfl, rfl⟩ := hget.get
  dsimp only at h
  split at h
  · obtain ⟨rfl, rfl⟩ := h.pure
    exact .inl ⟨rfl, rfl⟩
  · next run hhit =>
    rw [Option.filter_eq_some_iff] at hhit
    obtain ⟨hrow, hcas⟩ := hhit
    simp only [Bool.and_eq_true, beq_iff_eq] at hcas
    obtain ⟨u, s, hset, h⟩ := h.bind
    obtain rfl := setRun_returns hset
    obtain ⟨u, s, hadd, h⟩ := h.bind
    obtain ⟨hfree, rfl⟩ := addRunEvent_returns hadd
    obtain ⟨rfl, rfl⟩ := h.pure
    exact .inr ⟨rfl, run, hrow, hcas.1.2, hcas.2, hfree, rfl⟩

/-- Later events first. -/
def laterEvent (a b : (Uuid × Nat) × RunEvent) : Prop := b.1.2 ≤ a.1.2

instance : DecidableRel laterEvent := fun _ _ => inferInstanceAs (Decidable (_ ≤ _))

instance : Std.Total laterEvent where
  total a b := Nat.le_total b.1.2 a.1.2

instance : IsTrans ((Uuid × Nat) × RunEvent) laterEvent where
  trans _ _ _ hab hbc := Nat.le_trans hbc hab

/-- The reports of a run. -/
def reportsOf (db : Db) (org runId : Uuid) : List ((Uuid × Nat) × RunEvent) :=
  db.runEvents.select fun key event =>
    key.1 == runId && event.organizationId == org && event.eventType == "run.progress"

theorem mem_reportsOf {org runId id : Uuid} {n : Nat} {e : RunEvent} :
    ((id, n), e) ∈ reportsOf db org runId ↔ db.runEvents.lookup (id, n) = some e ∧ id = runId ∧
      e.organizationId = org ∧ e.isProgress := by
  rw [reportsOf, Table.mem_select]
  simp only [Bool.and_eq_true, beq_iff_eq, RunEvent.isProgress, and_assoc]

/-- The latest report of a run is the one with the greatest number. -/
theorem latestProgress_returns {org runId : Uuid} {latest : Option RunEvent}
    (h : Returns (latestProgress org runId) db latest db') :
    db = db' ∧ ∀ {n e}, db.runEvents.lookup (runId, n) = some e → e.organizationId = org →
      e.isProgress → ∃ m l, latest = some l ∧ db.runEvents.lookup (runId, m) = some l ∧
        l.isProgress ∧ n ≤ m := by
  unfold latestProgress at h
  obtain ⟨a, s, hget, h⟩ := h.bind
  obtain ⟨rfl, rfl⟩ := hget.get
  obtain ⟨hlatest, rfl⟩ := h.pure
  have hhead : latest = ((reportsOf db org runId).insertionSort laterEvent).head?.map (·.2) :=
    hlatest.symm
  refine ⟨rfl, fun {n e} he horg hprogress => ?_⟩
  have hmem : ((runId, n), e) ∈ reportsOf db org runId := mem_reportsOf.mpr ⟨he, rfl, horg, hprogress⟩
  cases hfirst : ((reportsOf db org runId).insertionSort laterEvent).head? with
  | none =>
    rw [List.head?_eq_none_iff] at hfirst
    have hsorted := (List.mem_insertionSort laterEvent).mpr hmem
    rw [hfirst] at hsorted
    cases hsorted
  | some first =>
    obtain ⟨⟨id, m⟩, l⟩ := first
    obtain ⟨hin, hall⟩ := Table.head_insertionSort hfirst
    obtain ⟨hl, rfl, -, hlp⟩ := mem_reportsOf.mp hin
    rw [hfirst] at hhead
    refine ⟨m, l, hhead, hl, hlp, ?_⟩
    rcases hall _ hmem with heq | hle
    · cases heq
      exact Nat.le_refl _
    · exact hle

/-- What a caller of `commitProgress` has checked: the report comes after all the run
has, as long as the run is at the number that was read. -/
def Reports (db : Db) (reference : RunWorkflowReference) (read : Run) (payload : EventPayload) :
    Prop :=
  payload.state = none ∧ ∀ run, db.run? reference.organizationId reference.runId = some run →
    run.eventSequence = read.eventSequence →
    ∀ n e, db.runEvents.lookup (reference.runId, n) = some e → e.isProgress →
      e.payload.Before payload

theorem commitProgress_changes {reference : RunWorkflowReference} {read : Run}
    {payload : EventPayload} {b : Bool} (hreports : Reports db reference read payload)
    (h : Returns (commitProgress reference read payload) db b db') : Changes permit db db' := by
  obtain ⟨-, rfl⟩ | ⟨-, run, hrow, hstate, hseq, hfree, rfl⟩ := commitProgress_returns h
  · exact .refl
  · obtain ⟨hrun, horg⟩ := Db.run?_some hrow
    exact .single (.note hrun hstate hfree horg.symm hreports.1 rfl fun he hp =>
      hreports.2 run hrow hseq _ _ he hp)

/-! ## Adoption -/

theorem readRun_returns {reference : RunWorkflowReference} {run : Run}
    (h : Returns (readRun reference) db run db') :
    db.run? reference.organizationId reference.runId = some run ∧
      run.specSha256 = reference.specSha256 ∧ run.spec.sha256 = reference.specSha256 ∧ db = db' := by
  unfold readRun runRow verifySpec at h
  obtain ⟨row, s, hread, h⟩ := h.bind
  obtain ⟨a, s', hget, hfound⟩ := hread.bind
  obtain ⟨rfl, rfl⟩ := hget.get
  obtain ⟨hrow, rfl⟩ := hfound.found
  obtain ⟨u, s, hreq, h⟩ := h.bind
  obtain ⟨hspec, rfl⟩ := hreq.require
  obtain ⟨rfl, rfl⟩ := h.pure
  exact ⟨hrow, hspec.1, hspec.2, rfl⟩

/-- A cancelling run is cancelled by the adoption that finds it. -/
theorem adoptCancelled_changes (hi : db.Inv) {runId : Uuid} {run : Run} {now : Instant}
    {answer : ArtifactCommit} (hrun : db.runs.lookup runId = some run)
    (hstate : run.state = .cancelling ∨ run.state = .cancelled)
    (h : Returns (adoptCancelled runId run now) db answer db') :
    Changes permit db db' ∧ answer = ⟨.cancelled, none, false⟩ := by
  have hpast : run.state = .cancelling ∨ run.state = .cancelled := hstate
  unfold adoptCancelled cancelLocked observeCancellation finishCancellation at h
  rw [if_pos hpast] at h
  obtain ⟨cancelled, s, hlock, h⟩ := h.bind
  obtain ⟨observed, s', hobserve, hlock⟩ := hlock.bind
  obtain ⟨rfl, rfl⟩ := hobserve.pure
  obtain ⟨hcancelling, hlock⟩ | ⟨hnot, hlock⟩ := hlock.ite
  · obtain ⟨u, s', htrans, hlock⟩ := hlock.bind
    obtain ⟨hmove, rfl⟩ := ensureTransition_returns htrans
    obtain ⟨u, s', hset, hlock⟩ := hlock.bind
    obtain rfl := setRun_returns hset
    obtain ⟨u, s', hadd, hlock⟩ := hlock.bind
    obtain ⟨hfree, rfl⟩ := addRunEvent_returns hadd
    obtain ⟨rfl, rfl⟩ := hlock.pure
    rw [if_pos rfl] at h
    unfold recordTerminalAudit at h
    obtain ⟨u, s, haudit, h⟩ := h.bind
    obtain ⟨rfl, rfl⟩ := h.pure
    obtain ⟨released, s, hrelease, haudit⟩ := haudit.bind
    obtain ⟨-, hfinish, -⟩ := release_finishes permit hi hrun hmove rfl (fun _ => rfl)
      (.inr ⟨by simp, .inr rfl⟩) hfree rfl rfl (RunEvent.titled_of rfl (by simp) (by simp))
      (by decide) hrelease
    exact ⟨.tail (.single hfinish) (append_change permit (by rfl) (by decide) haudit), rfl⟩
  · have hcancelled : run.state = .cancelled := hstate.resolve_left hnot
    obtain ⟨u, s', hset, hlock⟩ := hlock.bind
    obtain rfl := setRun_returns hset
    obtain ⟨rfl, rfl⟩ := hlock.pure
    rw [if_neg Bool.false_ne_true] at h
    obtain ⟨rfl, rfl⟩ := h.pure
    exact ⟨.single (.settle hrun hcancelled), rfl⟩

theorem verifyPublication_returns {run : Run} {publication : AdoptedDatgIndex} {u : Unit}
    (h : Returns (verifyPublication run publication) db u db') :
    (∃ existing ∈ publicationOf db run publication.cacheKeySha256,
      sameDatgPublication existing publication = true) ∧ db = db' := by
  unfold verifyPublication at h
  obtain ⟨a, s, hget, h⟩ := h.bind
  obtain ⟨rfl, rfl⟩ := hget.get
  exact h.require

/-- What a publication leaves of the supply of identifiers and of its table. -/
def Publishes (db : Db) (n : Uuid) (publications : Table Uuid DatgIndexPublication) : Prop :=
  (n = db.nextId ∧ publications = db.datgIndexPublications) ∨
    (n = db.nextId + 1 ∧ (publications = db.datgIndexPublications ∨ ∃ publication,
      db.datgIndexPublications.find (fun _ row => row.sameIndex publication) = none ∧
        publications = db.datgIndexPublications.insert db.nextId publication))

theorem Publishes.changes {n : Uuid} {publications : Table Uuid DatgIndexPublication}
    (h : Publishes db n publications) :
    Changes permit db { db with nextId := n, datgIndexPublications := publications } := by
  obtain ⟨rfl, rfl⟩ | ⟨rfl, rfl | ⟨publication, hfree, rfl⟩⟩ := h
  · exact .refl
  · exact .single (.id db)
  · exact .single (.publish publication hfree)

/-- The publication an adoption asks for is there, from this build or an equal one. -/
def Published (db : Db) (run : Run) (adopted : AdoptedArtifact) : Prop :=
  ∀ publication ∈ adopted.datgIndex, ∃ existing ∈ publicationOf db run publication.cacheKeySha256,
    sameDatgPublication existing publication = true

theorem Published.of_same {db db' : Db} {run run' : Run} {adopted : AdoptedArtifact}
    (h : Published db run adopted) (horg : run'.organizationId = run.organizationId)
    (hproject : run'.projectId = run.projectId)
    (hrows : db'.datgIndexPublications = db.datgIndexPublications) :
    Published db' run' adopted := by
  intro publication hp
  obtain ⟨existing, hexisting, hsame⟩ := h publication hp
  refine ⟨existing, ?_, hsame⟩
  unfold publicationOf at hexisting ⊢
  rw [horg, hproject, hrows]
  exact hexisting

/-- A row that was written where none stood is the one that is found. -/
theorem publicationOf_insert {run : Run} {id : Uuid} {cacheKeySha256 : Sha256}
    {row : DatgIndexPublication} (hfree : publicationOf db run cacheKeySha256 = none)
    (horg : row.organizationId = run.organizationId) (hproject : row.projectId = run.projectId)
    (hkey : row.cacheKeySha256 = cacheKeySha256) :
    publicationOf { db with datgIndexPublications := db.datgIndexPublications.insert id row } run
      cacheKeySha256 = some row := by
  have hnone := Option.map_eq_none_iff.mp hfree
  obtain ⟨e, he⟩ := Table.find_isSome (t := db.datgIndexPublications.insert id row) (k := id)
    (r := row) (p := fun _ record => record.organizationId == run.organizationId &&
      record.projectId == run.projectId && record.cacheKeySha256 == cacheKeySha256)
    (AList.lookup_insert _) (by simp [horg, hproject, hkey])
  obtain ⟨hlookup, hhit⟩ := Table.find_some he
  unfold publicationOf
  dsimp only
  rw [he, Option.map_some]
  rcases Table.lookup_insert_cases hlookup with ⟨-, hrow⟩ | ⟨-, hold⟩
  · rw [hrow]
  · rw [Table.find_none hnone hold] at hhit
    cases hhit

theorem commitDatgPublication_returns {runId : Uuid} {run : Run} {adopted : AdoptedArtifact}
    {u : Unit} (h : Returns (commitDatgPublication runId run adopted) db u db') :
    Published db' run adopted ∧ ∃ n publications, Publishes db n publications ∧
      db' = { db with nextId := n, datgIndexPublications := publications } := by
  unfold commitDatgPublication at h
  split at h
  · next hnone =>
    obtain ⟨-, rfl⟩ := h.pure
    refine ⟨fun _ hp => ?_, _, _, .inl ⟨rfl, rfl⟩, rfl⟩
    rw [hnone] at hp
    cases hp
  · next publication hsome =>
    obtain ⟨u, s, hreq, h⟩ := h.bind
    obtain ⟨-, rfl⟩ := hreq.require
    obtain ⟨id, s, hid, h⟩ := h.bind
    obtain ⟨rfl, rfl⟩ := uuid4_returns hid
    obtain ⟨a, s, hget, h⟩ := h.bind
    obtain ⟨rfl, rfl⟩ := hget.get
    have hone : ∀ p ∈ adopted.datgIndex, p = publication := fun p hp =>
      Option.some.inj (hp.symm.trans hsome)
    obtain ⟨hfree, h⟩ | ⟨-, h⟩ := h.ite
    · obtain rfl := h.set
      refine ⟨fun p hp => ?_, _, _, .inr ⟨rfl, .inr ⟨_, ?_, rfl⟩⟩, rfl⟩
      · rw [hone p hp]
        exact ⟨_, publicationOf_insert hfree.1 rfl rfl rfl, by simp [sameDatgPublication]⟩
      · exact Option.map_eq_none_iff.mp hfree.1
    · obtain ⟨hexisting, rfl⟩ := verifyPublication_returns h
      refine ⟨fun p hp => ?_, _, _, .inr ⟨rfl, .inl rfl⟩, rfl⟩
      rw [hone p hp]
      exact hexisting

/-- The artifact row an adoption writes. -/
def adoptedRow (runId : Uuid) (run : Run) (adopted : AdoptedArtifact) : Artifact where
  organizationId := run.organizationId
  projectId := run.projectId
  runId := some runId
  createdBy := run.createdBy
  scopeKey := some runId
  kind := .runResult
  sha256 := adopted.sha256
  sizeBytes := adopted.sizeBytes
  storageKey := adopted.storageKey
  mediaType := adopted.mediaType
  filename := adopted.filename
  state := .active
  retentionUntil := adopted.retentionUntil
  tombstonedAt := none
  deletedAt := none

/-- An adoption is one `adopt`, and whatever its publication needs. -/
theorem adoptResult_changes (hi : db.Inv) {policy : Option QuotaPolicyValues} {runId : Uuid}
    {run : Run} {adopted : AdoptedArtifact} {now : Instant} {answer : ArtifactCommit}
    (hrun : db.runs.lookup runId = some run) (hstate : run.state = .running)
    (hask : run.cancellationRequestedAt = none)
    (hkeyed : (adoptedRow runId run adopted).Keyed)
    (h : Returns (adoptResult policy runId run adopted now) db answer db') :
    Changes (.reading run.organizationId policy) db db' ∧
      answer = ⟨.succeeded, some db.nextId, true⟩ ∧
      db'.runs = db.runs.insert runId (run.moved .succeeded
        (some (artifactResultSummary db.nextId adopted)) none none) ∧
      db'.artifacts = db.artifacts.insert db.nextId (adoptedRow runId run adopted) ∧
      Published db' run adopted := by
  unfold adoptResult at h
  obtain ⟨artifactId, s, hid, h⟩ := h.bind
  obtain ⟨rfl, rfl⟩ := uuid4_returns hid
  obtain ⟨u, s, hinsert, h⟩ := h.bind
  obtain ⟨hsize, hscope, hkey, rfl⟩ := insertArtifact_returns hinsert
  dsimp only at h
  obtain ⟨u, s, hpublish, h⟩ := h.bind
  obtain ⟨hpublished, n, publications, hpublishes, rfl⟩ := commitDatgPublication_returns hpublish
  dsimp only at h
  obtain ⟨u, s, hconsume, h⟩ := h.bind
  obtain ⟨p, usage, hp, husage, hcount, hbytes, rfl⟩ := consumeArtifact_returns hconsume
  dsimp only at h
  obtain ⟨u, s, htrans, h⟩ := h.bind
  obtain ⟨hmove, rfl⟩ := ensureTransition_returns htrans
  obtain ⟨u, s, hset, h⟩ := h.bind
  obtain rfl := setRun_returns hset
  dsimp only at h
  obtain ⟨u, s, hadd, h⟩ := h.bind
  obtain ⟨hfree, rfl⟩ := addRunEvent_returns hadd
  dsimp only at h
  obtain ⟨u, s, haudit, h⟩ := h.bind
  obtain ⟨head, hhead, hfirst, rfl⟩ := append_returns haudit
  dsimp only at h
  obtain ⟨u, s, hterminal, h⟩ := h.bind
  obtain ⟨rfl, rfl⟩ := h.pure
  unfold recordTerminalAudit at hterminal
  obtain ⟨released, s, hrelease, hterminal⟩ := hterminal.bind
  dsimp only at hrelease
  obtain ⟨rid, r, hown, hholds⟩ := hi.ownReservation hrun
  have hactive : r.state = .active := hholds.active.mpr (by rw [hstate]; rfl)
  obtain ⟨-, -, hnone⟩ | ⟨rfl, rid', r', usage', hown', -, husage', rfl⟩ := releaseRun_returns hrelease
  · exact absurd hactive (hnone rid r hown)
  dsimp only at hterminal
  obtain ⟨head', hhead', hsecond, rfl⟩ := append_returns hterminal
  obtain ⟨rfl, rfl⟩ : rid = rid' ∧ r = r' := by
    have hsame := hown.symm.trans hown'
    simpa using hsame
  rw [AList.lookup_insert] at husage' hhead'
  cases husage'
  cases hhead'
  rw [AList.lookup_insert_ne (by simp)] at hsecond
  obtain ⟨hr, hr_org, hr_run⟩ := ownReservation_some hown
  refine ⟨?_, rfl, by rw [hask]; rfl, rfl, hpublished.of_same rfl rfl rfl⟩
  have hpolicy : (Permit.reading run.organizationId policy).policy run.organizationId = some p := by
    simpa [Permit.reading] using hp
  have hadopted : (AuditEvent.mk (.service .adoption) .artifactAdopted .artifact db.nextId none now
      [("kind", .text ArtifactKind.runResult.value), ("schema_id", .text adopted.schemaId),
        ("sha256", .digest adopted.sha256), ("size_bytes", .nat adopted.sizeBytes)]).Adopts
      db.nextId := ⟨rfl, rfl⟩
  have hsucceeded : (AuditEvent.mk (.service .adoption) .runSucceeded .run runId none now
      [("kind", .text run.kind.value)]).EndsByAdoption runId := ⟨rfl, rfl, rfl⟩
  have hevent : (RunEvent.mk run.organizationId "run.succeeded"
      { resultSummary := some (artifactResultSummary db.nextId adopted)
        state := some .succeeded }).payload.state = some RunState.succeeded := rfl
  refine .head (.adopt now adopted.mediaType adopted.schemaId hrun hstate hask hfree rfl hevent hr
    ⟨hr_run, hr_org⟩ hactive rfl hsize ⟨rfl, rfl, rfl, rfl⟩ hkeyed hscope hkey hpolicy husage hcount hbytes
    hhead hfirst hsecond hadopted hsucceeded
    (RunEvent.titled_of rfl (by simp) (by simp))) ?_
  dsimp only
  rw [AList.insert_insert, AList.insert_insert]
  exact Publishes.changes hpublishes

/-- What a committed adoption call found and did. -/
inductive Adoption (reference : RunWorkflowReference) (adopted : AdoptedArtifact) (db db' : Db)
    (run : Run) : ArtifactCommit → Prop
  | cancelled (h : run.state = .cancelling ∨ run.state = .cancelled) :
      Adoption reference adopted db db' run ⟨.cancelled, none, false⟩
  | again {id : Uuid} (h : run.state = .succeeded) (hdb : db = db') :
      Adoption reference adopted db db' run ⟨.succeeded, some id, false⟩
  | done (h : run.state = .running)
      (hruns : db'.runs = db.runs.insert reference.runId (run.moved .succeeded
        (some (artifactResultSummary db.nextId adopted)) none none))
      (hartifacts : db'.artifacts =
        db.artifacts.insert db.nextId (adoptedRow reference.runId run adopted))
      (hpublished : Published db' run adopted) :
      Adoption reference adopted db db' run ⟨.succeeded, some db.nextId, true⟩

theorem adoptAgain_returns {runId : Uuid} {run : Run} {adopted : AdoptedArtifact}
    {answer : ArtifactCommit} (h : Returns (adoptAgain runId run adopted) db answer db') :
    db = db' ∧ ∃ id, answer = ⟨run.state, some id, false⟩ := by
  unfold adoptAgain at h
  obtain ⟨a, s, hget, h⟩ := h.bind
  obtain ⟨rfl, rfl⟩ := hget.get
  obtain ⟨existing, s, hfound, h⟩ := h.bind
  obtain ⟨-, rfl⟩ := hfound.found
  obtain ⟨u, s, hreq, h⟩ := h.bind
  obtain ⟨-, rfl⟩ := hreq.require
  obtain ⟨u, s, hverify, h⟩ := h.bind
  obtain ⟨rfl, rfl⟩ := h.pure
  unfold verifyExistingDatgPublication at hverify
  split at hverify
  · exact ⟨hverify.pure.2, _, rfl⟩
  · exact ⟨(verifyPublication_returns hverify).2, _, rfl⟩

theorem commitAdoptedResult_changes (hi : db.Inv) {policy : Option QuotaPolicyValues}
    {reference : RunWorkflowReference} {adopted : AdoptedArtifact} {now : Instant}
    {answer : ArtifactCommit}
    (h : Returns (commitAdoptedResult policy reference adopted now) db answer db') :
    Changes (.reading reference.organizationId policy) db db' ∧
      ∃ run, db.run? reference.organizationId reference.runId = some run ∧
        Adoption reference adopted db db' run answer := by
  unfold commitAdoptedResult at h
  obtain ⟨run, s, hread, h⟩ := h.bind
  obtain ⟨hrow, -, -, rfl⟩ := readRun_returns hread
  obtain ⟨hrun, horg⟩ := Db.run?_some hrow
  obtain ⟨u, s, hreq, h⟩ := h.bind
  obtain ⟨hkey, rfl⟩ := hreq.require
  obtain ⟨hcancel, h⟩ | ⟨hlive, h⟩ := h.ite
  · have hstate : run.state = .cancelling ∨ run.state = .cancelled :=
      hcancel.elim id fun hasked => hi.log.asked hrun hasked
    obtain ⟨hchanges, rfl⟩ := adoptCancelled_changes hi hrun hstate h
    exact ⟨hchanges, run, hrow, .cancelled hstate⟩
  · have hasked : run.cancellationRequestedAt = none := by
      by_contra hne
      exact hlive (.inr hne)
    obtain ⟨hdone, h⟩ | ⟨-, h⟩ := h.ite
    · obtain ⟨rfl, id, rfl⟩ := adoptAgain_returns h
      rw [hdone]
      exact ⟨.refl, run, hrow, .again hdone rfl⟩
    · obtain ⟨u, s, hreq, h⟩ := h.bind
      obtain ⟨hstate, rfl⟩ := hreq.require
      obtain ⟨hchanges, rfl, hruns, hartifacts, hpublished⟩ := adoptResult_changes hi hrun hstate hasked hkey h
      rw [horg] at hchanges
      exact ⟨hchanges, run, hrow, .done hstate hruns hartifacts hpublished⟩

end DurableRunStore

/-! ## Expiry -/

theorem expiryTarget_terminal (state : RunState) : isTerminal (expiryTarget state).1 = true := by
  unfold expiryTarget
  split <;> rfl

theorem expiryTarget_titled (state : RunState) (org : Uuid) (payload : EventPayload) :
    (RunEvent.mk org (if (expiryTarget state).1 = .cancelled then "run.cancelled" else "run.failed")
      payload).Titled (expiryTarget state).1 := by
  unfold expiryTarget
  split <;> exact RunEvent.titled_of rfl (by simp) (by simp)

/-- The candidate of an expiry names the run of its reservation. -/
def ExpiryCandidate (db : Db) (reservationId organizationId runId : Uuid) : Prop :=
  ∀ r, db.quotaReservations.lookup reservationId = some r →
    r.organizationId = organizationId ∧ r.runId = runId

theorem expireReservation_changes (hi : db.Inv) {cutoff : Instant}
    {reservationId organizationId runId : Uuid} {now : Instant} {b : Bool}
    (hcandidate : ExpiryCandidate db reservationId organizationId runId)
    (h : Returns (expireReservation cutoff reservationId organizationId runId now) db b db') :
    Changes permit db db' := by
  unfold expireReservation at h
  obtain ⟨a, s, hget, h⟩ := h.bind
  obtain ⟨rfl, rfl⟩ := hget.get
  obtain ⟨run, s, hfound, h⟩ := h.bind
  obtain ⟨hrow, rfl⟩ := hfound.found
  obtain ⟨hrun, horg⟩ := Db.run?_some hrow
  dsimp only at h
  split at h
  · obtain ⟨-, rfl⟩ := h.pure
    exact .refl
  · next reservation hlocked =>
    rw [Option.filter_eq_some_iff] at hlocked
    obtain ⟨hres, hdue⟩ := hlocked
    simp only [Bool.and_eq_true, beq_iff_eq] at hdue
    -- the locked reservation is the run's own, so the run is live
    obtain ⟨-, hown⟩ := hcandidate reservation hres
    obtain ⟨owner, howner, hholds⟩ := hi.reserved.owned hres
    rw [hown, hrun] at howner
    cases howner
    have hlive : isTerminal run.state = false := hholds.active.mp hdue.1.2
    obtain ⟨u, s, hend, h⟩ := h.bind
    unfold endExpiredRun at hend
    rw [if_neg (by rw [hlive]; exact Bool.false_ne_true)] at hend
    obtain ⟨u, s', htrans, hend⟩ := hend.bind
    obtain ⟨hmove, rfl⟩ := ensureTransition_returns htrans
    obtain ⟨u, s', hset, hend⟩ := hend.bind
    obtain rfl := setRun_returns hset
    obtain ⟨hfree, rfl⟩ := addRunEvent_returns hend
    obtain ⟨released, s, hrelease, h⟩ := h.bind
    rw [← horg] at hrelease
    obtain ⟨rfl, hfinish, -⟩ := release_finishes permit hi hrun hmove (expiryTarget_terminal _)
      (fun hc => by rw [hc]; rfl) (.inl rfl) hfree rfl rfl (expiryTarget_titled _ _ _)
      (by decide) hrelease
    rw [if_pos rfl] at h
    obtain ⟨u, s, hexpired, h⟩ := h.bind
    obtain ⟨u, s, haudit, h⟩ := h.bind
    obtain ⟨-, rfl⟩ := h.pure
    unfold auditExpiredRun at haudit
    rw [if_neg (by rw [hlive]; exact Bool.false_ne_true)] at haudit
    refine .tail (.tail (.single hfinish) (append_change permit (by rfl) (by decide) hexpired))
      (append_change permit ?_ ?_ haudit)
    all_goals
      dsimp only
      split <;> simp [AuditEvent.isPlain, AuditEvent.isAdoption, submissionActions]

end CorpusKit
