import CorpusKit.Persistence.Rows
import CorpusKit.System.Obligations

/-! # Submissions are idempotent

Submission, retry and replay share the idempotency keys of an organization. Each
looks for a run under its key, and its last transaction looks again before it
inserts one. Runs only go with their project, so as long as no project is erased a
key never changes its run: at most one call has created it, and every other call
that answers has found it to be what it asks for. -/

namespace CorpusKit

open Transaction Program Interleaving

/-! ## Lineage rows -/

/-- The source and the classification of a replay never change. -/
structure RunReplay.Same (r r' : RunReplay) : Prop where
  sourceRunId : r'.sourceRunId = r.sourceRunId
  sourceManifestArtifactId : r'.sourceManifestArtifactId = r.sourceManifestArtifactId
  expectedManifestSha256 : r'.expectedManifestSha256 = r.expectedManifestSha256
  classification : r'.classification = r.classification

theorem RunReplay.Same.refl (r : RunReplay) : r.Same r := ⟨rfl, rfl, rfl, rfl⟩

theorem RunReplay.Same.trans {a b c : RunReplay} (h : a.Same b) (h' : b.Same c) : a.Same c where
  sourceRunId := h'.sourceRunId.trans h.sourceRunId
  sourceManifestArtifactId := h'.sourceManifestArtifactId.trans h.sourceManifestArtifactId
  expectedManifestSha256 := h'.expectedManifestSha256.trans h.expectedManifestSha256
  classification := h'.classification.trans h.classification

/-- Rows of lineage stay. -/
def Db.ReplaysStay (db db' : Db) : Prop :=
  ∀ id replay, db.runReplays.lookup id = some replay →
    ∃ replay', db'.runReplays.lookup id = some replay' ∧ replay.Same replay'

theorem Db.ReplaysStay.of_eq {db db' : Db} (h : db'.runReplays = db.runReplays) :
    db.ReplaysStay db' := by
  intro id replay hreplay
  exact ⟨replay, h ▸ hreplay, .refl replay⟩

theorem Db.ReplaysStay.trans {a b c : Db} (h : a.ReplaysStay b) (h' : b.ReplaysStay c) :
    a.ReplaysStay c := by
  intro id replay hreplay
  obtain ⟨mid, hmid, hsame⟩ := h id replay hreplay
  obtain ⟨last, hlast, hsame'⟩ := h' id mid hmid
  exact ⟨last, hlast, hsame.trans hsame'⟩

section Lineage

variable {permit : Permit} {db db' : Db}

theorem Change.replaysStay (hc : Change permit db db') (hpermit : permit.erases = false) :
    db.ReplaysStay db' := by
  cases hc with
  | lineage replay hid hfree =>
    intro id old hold
    have hne : id ≠ _ := fun heq => by rw [heq, hfree] at hold; cases hold
    exact ⟨old, by rw [AList.lookup_insert_ne hne]; exact hold, .refl old⟩
  | @observe runId row manifest hreplay =>
    intro id old hold
    by_cases hid : id = runId
    · subst hid
      rw [hreplay] at hold
      cases hold
      exact ⟨_, AList.lookup_insert _, ⟨rfl, rfl, rfl, rfl⟩⟩
    · exact ⟨old, by rw [AList.lookup_insert_ne hid]; exact hold, .refl old⟩
  | erase herases => rw [hpermit] at herases; cases herases
  | _ => exact .of_eq rfl

theorem Changes.replaysStay (hc : Changes permit db db') (hpermit : permit.erases = false) :
    db.ReplaysStay db' := by
  induction hc with
  | refl => exact .of_eq rfl
  | tail _ hstep ih => exact ih.trans (hstep.replaysStay hpermit)

end Lineage

/-! ## Runs without an erasure -/

variable {dep : Deployment}

/-- Everything but the erasure of a project. -/
def unerased (dep : Deployment) : Guard (system dep (services dep)) :=
  fun _ _ _ o => Op.erase? o = none

/-- The world moves on and no row of a run goes. -/
structure World.Retains (w w' : World) : Prop where
  later : w.Later w'
  rows : w.db.Keeps w'.db
  replays : w.db.ReplaysStay w'.db

theorem World.Retains.refl (w : World) : w.Retains w := ⟨.refl w, .refl _, .of_eq rfl⟩

theorem World.Retains.trans {u v w : World} (h : u.Retains v) (h' : v.Retains w) : u.Retains w :=
  ⟨h.later.trans h'.later, h.rows.trans h'.rows, h.replays.trans h'.replays⟩

theorem World.Retains.of_db {w w' : World} (hl : w.Later w') (h : w'.db = w.db) : w.Retains w' :=
  ⟨hl, h ▸ .refl _, .of_eq (by rw [h])⟩

theorem erases_of_erase? {β : Type} {action : Action β} (h : action.erase? = none) :
    action.permit.erases = false := by
  cases action with
  | purgeProject => cases h
  | _ => rfl

theorem Op.retains {β : Type} {o : Op β} {w w' : World} {b : β} (hi : w.Inv dep)
    (howes : o.Owes dep w) (hkept : o.erase? = none) (h : Returns (o.exec dep) w b w') :
    w.Retains w' := by
  have hl := (Op.keeps hi howes h).2
  cases o with
  | query q =>
    obtain ⟨-, rfl⟩ := query_returns h
    exact .refl w
  | request r => exact .of_db hl (r.db_eq h)
  | write action =>
    obtain ⟨db, hbody, rfl⟩ := transact_returns h
    have hchanges := action.changes hi.db howes hbody
    have hpermit := erases_of_erase? hkept
    exact ⟨hl, hchanges.keeps hpermit, hchanges.replaysStay hpermit⟩

theorem Tick.retains (t : Tick) (w : World) (hi : w.Inv dep) : w.Retains (t.apply w) := by
  refine .of_db (Tick.keeps t hi).2 ?_
  cases t <;> rfl

/-- What the calls may rely on in such a run. -/
def retaining (dep : Deployment) : Contract (system dep (services dep)) where
  inv := World.Inv dep
  evolve := World.Retains
  may _ o w := Op.Owes dep w o ∧ Op.erase? o = none
  must _ _ _ _ := True
  refl := World.Retains.refl
  trans := World.Retains.trans
  op hi hmay _ h := ⟨(Op.keeps hi hmay.1 h).1, Op.retains hi hmay.1 hmay.2 h⟩
  tick hi := ⟨(Tick.keeps _ hi).1, Tick.retains _ _ hi⟩

/-! ## The run under a key -/

/-- What a submission asks of its run. -/
structure Wanted where
  kind : RunKind
  projectId : Uuid
  corpusVersionId : Option Uuid
  parentRunId : Option Uuid
  specSha256 : Sha256

def Run.wanted (run : Run) : Wanted :=
  ⟨run.kind, run.projectId, run.corpusVersionId, run.parentRunId, run.specSha256⟩

/-- The run holds the key of the organization and is what was asked for. -/
def Db.Answered (db : Db) (organizationId : Uuid) (key : String) (runId : Uuid)
    (wanted : Wanted) : Prop :=
  ∃ run, db.runs.lookup runId = some run ∧ run.organizationId = organizationId ∧
    run.idempotencyKey = key ∧ run.wanted = wanted

/-- The run holds the key. -/
def HoldsKey (organizationId : Uuid) (key : String) (id : Uuid) (w : World) : Prop :=
  ∃ run, w.db.runs.lookup id = some run ∧ run.organizationId = organizationId ∧
    run.idempotencyKey = key

/-- Some run holds the key. -/
def HasRun (organizationId : Uuid) (key : String) (w : World) : Prop :=
  ∃ id, HoldsKey organizationId key id w

/-- Whatever run held the key, holds it still. -/
def KeepsKey (organizationId : Uuid) (key : String) (w w' : World) : Prop :=
  ∀ id, HoldsKey organizationId key id w → HoldsKey organizationId key id w'

theorem KeepsKey.refl (organizationId : Uuid) (key : String) (w : World) :
    KeepsKey organizationId key w w :=
  fun _ hholds => hholds

theorem KeepsKey.trans {organizationId : Uuid} {key : String} {u v w : World}
    (h : KeepsKey organizationId key u v) (h' : KeepsKey organizationId key v w) :
    KeepsKey organizationId key u w :=
  fun id hholds => h' id (h id hholds)

section Rows

variable {w w' : World} {organizationId runId : Uuid} {key : String} {wanted : Wanted}

/-- A run stays, and what it is for stays as it is. -/
theorem World.Retains.run (h : w.Retains w') (hi : w.Inv dep) {run : Run}
    (hrun : w.db.runs.lookup runId = some run) :
    ∃ run', w'.db.runs.lookup runId = some run' ∧ run'.organizationId = run.organizationId ∧
      run'.idempotencyKey = run.idempotencyKey ∧ run'.wanted = run.wanted := by
  obtain ⟨run', hrun'⟩ := h.rows.runs runId run hrun
  obtain ⟨old, hold, hlater⟩ := h.later.db.runs runId run' hrun' (hi.db.log.fresh _ _ hrun)
  obtain rfl : run = old := Option.some.inj (hrun.symm.trans hold)
  refine ⟨run', hrun', ?_⟩
  rw [hlater.identity]
  exact ⟨rfl, rfl, rfl⟩

theorem Db.Answered.later (h : w.Retains w') (hi : w.Inv dep)
    (ha : w.db.Answered organizationId key runId wanted) :
    w'.db.Answered organizationId key runId wanted := by
  obtain ⟨run, hrun, horg, hkey, hwanted⟩ := ha
  obtain ⟨run', hrun', horg', hkey', hwanted'⟩ := h.run hi hrun
  exact ⟨run', hrun', horg'.trans horg, hkey'.trans hkey, hwanted'.trans hwanted⟩

theorem HoldsKey.later (h : w.Retains w') (hi : w.Inv dep)
    (hw : HoldsKey organizationId key runId w) : HoldsKey organizationId key runId w' := by
  obtain ⟨run, hrun, horg, hkey⟩ := hw
  obtain ⟨run', hrun', horg', hkey', -⟩ := h.run hi hrun
  exact ⟨run', hrun', horg'.trans horg, hkey'.trans hkey⟩

theorem idempotentRun_some {db : Db} {run : Run}
    (h : db.idempotentRun organizationId key = some (runId, run)) :
    db.runs.lookup runId = some run ∧ run.organizationId = organizationId ∧
      run.idempotencyKey = key := by
  obtain ⟨hrun, hmatch⟩ := Table.find_some h
  simp only [Bool.and_eq_true, beq_iff_eq] at hmatch
  exact ⟨hrun, hmatch⟩

theorem not_hasRun (h : w.db.idempotentRun organizationId key = none) :
    ¬ HasRun organizationId key w := by
  rintro ⟨id, run, hrun, rfl, rfl⟩
  have hmiss := Table.find_none h hrun
  simp at hmiss

/-- No run holds the key until now. -/
theorem HasRun.of_lookup {run : Run} (hrun : w.db.runs.lookup runId = some run)
    (horg : run.organizationId = organizationId) (hkey : run.idempotencyKey = key) :
    HasRun organizationId key w :=
  ⟨runId, run, hrun, horg, hkey⟩

end Rows

/-! ## What an answer says -/

section Answers

variable {organizationId runId : Uuid} {key : String} {wanted : Wanted} {run : Run}
  {past : List (Event (system dep (services dep)))} {u v w : World}

/-- Nothing that was done changed the world. -/
def Inert (past : List (Event (system dep (services dep)))) : Prop := ∀ e ∈ past, e.after = e.before

theorem Inert.nil : Inert ([] : List (Event (system dep (services dep)))) :=
  fun _ he => (List.not_mem_nil he).elim

theorem Inert.cons {e : Event (system dep (services dep))} (he : e.after = e.before)
    (h : Inert past) : Inert (e :: past) :=
  List.forall_mem_cons.mpr ⟨he, h⟩

/-- An answer is the run under the key, which is what the call asks for; the call has
made it, or it has made nothing. -/
structure Settles (organizationId : Uuid) (key : String) (runId : Uuid) (run : Run)
    (created : Bool) (wanted : Wanted) (past : List (Event (system dep (services dep))))
    (w : World) : Prop where
  answered : w.db.Answered organizationId key runId wanted
  organization : run.organizationId = organizationId
  keyed : run.idempotencyKey = key
  same : run.wanted = wanted
  made : created = true → ∃ e ∈ past, e.Flips (HasRun organizationId key)
  found : created = false → Inert past

theorem settles_existing (hi : v.Inv dep) (hu : v.Retains u)
    (hkey : v.db.idempotentRun organizationId key = some (runId, run))
    (hwanted : run.wanted = wanted) (hinert : Inert past) :
    Settles organizationId key runId run false wanted past u := by
  obtain ⟨hrun, horg, heq⟩ := idempotentRun_some hkey
  have hanswered : v.db.Answered organizationId key runId wanted := ⟨run, hrun, horg, heq, hwanted⟩
  exact ⟨hanswered.later hu hi, horg, heq, hwanted, fun h => (Bool.noConfusion h), fun _ => hinert⟩

theorem settles_created {β : Type} {o : Op β} (hi : w.Inv dep) (hu : w.Retains u)
    (hfree : v.db.idempotentRun organizationId key = none)
    (hrun : w.db.runs.lookup runId = some run) (horg : run.organizationId = organizationId)
    (hkey : run.idempotencyKey = key) (hwanted : run.wanted = wanted) :
    Settles organizationId key runId run true wanted
      (⟨o, v, w⟩ :: past : List (Event (system dep (services dep)))) u := by
  have hanswered : w.db.Answered organizationId key runId wanted := ⟨run, hrun, horg, hkey, hwanted⟩
  refine ⟨hanswered.later hu hi, horg, hkey, hwanted, fun _ => ?_, fun h => (Bool.noConfusion h)⟩
  exact ⟨_, List.mem_cons_self, not_hasRun hfree, .of_lookup hrun horg hkey⟩

end Answers

/-! ## The calls -/

section Programs

variable {α β : Type} {next : β → Service α} {w : World}
  {past : List (Event (system dep (services dep)))}
  {Q : α → List (Event (system dep (services dep))) → World → Prop}

/-- A call that raises has changed nothing. -/
def Leaves : Error → List (Event (system dep (services dep))) → World → Prop :=
  fun _ past _ => Inert past

theorem sat_look_inert {f : World → β} (hi : w.Inv dep) (hinert : Inert past)
    (h : ∀ v u past', Inert past' → w.Retains v → v.Inv dep → v.Retains u → u.Inv dep →
      Sat (retaining dep) Q Leaves (next (f v)) past' u) :
    Sat (retaining dep) Q Leaves (look f >>= next) past w := by
  refine Sat.bind (C := retaining dep) hi (Sat.perform (C := retaining dep)
    (fun _ _ _ _ => trivial) (fun v a v' u hv hiv _ hret hu hiu => ?_)
    fun v e u _ _ _ hraise _ _ => ?_)
  · have hret : Returns ((Op.query fun x => .ok (f x)).exec dep) v a v' := hret
    obtain ⟨heq, rfl⟩ := query_returns hret
    cases heq
    exact h v u _ (.cons rfl hinert) hv hiv hu hiu
  · cases hraise

theorem sat_read_inert {body : DbTx β} (hi : w.Inv dep) (hinert : Inert past)
    (h : ∀ v a db u past', Inert past' → w.Retains v → v.Inv dep → Returns body v.db a db →
      v.Retains u → u.Inv dep → Sat (retaining dep) Q Leaves (next a) past' u) :
    Sat (retaining dep) Q Leaves (read body >>= next) past w :=
  sat_read_event (C := retaining dep) hi (fun _ _ => trivial)
    (fun v a db u _ hv hiv hret hu hiu => h v a db u _ (.cons rfl hinert) hv hiv hret hu hiu)
    fun _ _ _ _ _ _ _ _ _ => .cons rfl hinert

end Programs

section Calls

variable {w : World} {past : List (Event (system dep (services dep)))}

/-- Reading back an answer that holds from now on. -/
theorem sat_settled {β : Type} {Q : β → List (Event (system dep (services dep))) → World → Prop}
    {a : β} (h : ∀ u, w.Retains u → Q a past u) :
    Sat (retaining dep) Q Leaves (pure a : Service β) past w :=
  Sat.ret (C := retaining dep) fun u hu _ => h u hu

namespace JobControlPlane

def wanted (s : NewSubmission) : Wanted :=
  ⟨s.kind, s.projectId, s.corpusVersionId, s.parentRunId, s.specSha256⟩

theorem SameSubmission.wanted_eq {run : Run} {s : NewSubmission} (h : SameSubmission run s) :
    run.wanted = wanted s := by
  obtain ⟨hkind, hproject, hversion, hparent, hspec⟩ := h
  simp only [Run.wanted, wanted, hkind, hproject, hversion, hparent, hspec]

/-- What a submission answers. -/
def Submits (s : NewSubmission) (a : SubmissionResult)
    (past : List (Event (system dep (services dep)))) (w : World) : Prop :=
  Settles s.organizationId s.idempotencyKey a.runId a.run a.created (wanted s) past w

theorem sat_insertSubmission {policy : Option QuotaPolicyValues} {s : NewSubmission}
    {now : Instant} (hinert : Inert past) :
    Sat (retaining dep) (Submits s) Leaves (write (.submit policy s now)) past w := by
  refine Sat.perform (C := retaining dep) (fun _ _ _ _ => trivial)
    (fun v a v' u _ hi hmay hret hu _ => ?_) fun _ _ _ _ _ _ _ _ _ => .cons rfl hinert
  have hi' := (Op.keeps hi hmay.1 hret).1
  obtain ⟨db, hbody, rfl⟩ := transact_returns hret
  obtain ⟨-, hanswer⟩ := insertSubmission_changes hi.db hbody
  obtain ⟨runId, run, outboxState, created⟩ := a
  cases hanswer with
  | existing hdb hcreated hkey hsame =>
    dsimp only at hdb hcreated hkey hsame
    subst hdb hcreated
    exact settles_existing hi hu hkey hsame.wanted_eq (.cons rfl hinert)
  | created hcreated hkey hid hrun hruns =>
    dsimp only at hcreated hid hrun
    subst hcreated hid hrun
    refine settles_created hi' hu hkey ?_ rfl rfl rfl
    rw [hruns]
    exact AList.lookup_insert _

theorem submitInSession_settles (s : NewSubmission) (hi : w.Inv dep) (hinert : Inert past) :
    Sat (retaining dep) (Submits s) Leaves (submitInSession dep s) past w := by
  refine sat_read_inert hi hinert fun v existing db u past hinert _ hiv hret hvu hiu => ?_
  obtain ⟨-, ⟨rfl, -⟩ | ⟨runId, run, outboxState, rfl, hkey, hsame⟩⟩ :=
    existingSubmission_returns hret
  · refine Sat.require (C := retaining dep) (fun _ => ?_) fun _ _ _ => hinert
    refine sat_read_inert hiu hinert fun _ _ _ v _ hinert _ _ _ _ hiv => ?_
    refine sat_read_inert hiv hinert fun _ _ _ u _ hinert _ _ _ _ hiu => ?_
    refine sat_read_inert hiu hinert fun _ _ _ v _ hinert _ _ _ _ hiv => ?_
    refine sat_look_inert hiv hinert fun _ u _ hinert _ _ _ hiu => ?_
    exact sat_look_inert hiu hinert fun _ _ _ hinert _ _ _ _ => sat_insertSubmission hinert
  · exact sat_settled fun t ht => settles_existing hiv (hvu.trans ht) hkey hsame.wanted_eq hinert

/-- What a submission of a user answers. -/
theorem submit_settles (who : JobActor) (submission : RunSubmission) (key : String)
    (hi : w.Inv dep) :
    Sat (retaining dep) (fun a past u => ∃ spec, submission.spec = some spec ∧
        Settles who.organizationId key a.runId a.run a.created
          ⟨submission.kind, submission.projectId, submission.corpusVersionId, none, spec.sha256⟩
          past u)
      Leaves (submit dep who submission key) [] w := by
  refine Sat.require (C := retaining dep) (fun _ => ?_) fun _ _ _ => .nil
  refine Sat.found (C := retaining dep) (fun spec hspec => ?_) fun _ _ _ => .nil
  refine sat_read_inert hi .nil fun _ user _ u _ hinert _ _ _ _ hiu => ?_
  refine Sat.require (C := retaining dep) (fun _ => ?_) fun _ _ _ => hinert
  refine sat_read_inert hiu hinert fun _ _ _ v _ hinert _ _ _ _ hiv => ?_
  exact (submitInSession_settles _ hiv hinert).mono (fun _ _ _ h => ⟨spec, hspec, h⟩)
    fun _ _ _ h => h

/-- What a retry answers: the run is what its source is. -/
theorem retry_settles (who : JobActor) (runId : Uuid) (key : String) (hi : w.Inv dep) :
    Sat (retaining dep) (fun a past u => ∃ source, u.db.runs.lookup runId = some source ∧
        source.organizationId = who.organizationId ∧
        Settles who.organizationId key a.runId a.run a.created
          { source.wanted with parentRunId := some runId } past u)
      Leaves (retry dep who runId key) [] w := by
  refine Sat.require (C := retaining dep) (fun _ => ?_) fun _ _ _ => .nil
  refine sat_read_inert hi .nil fun _ user _ u _ hinert _ _ _ _ hiu => ?_
  refine Sat.require (C := retaining dep) (fun _ => ?_) fun _ _ _ => hinert
  refine sat_read_inert hiu hinert fun x source _ v _ hinert _ hix hret hxv hiv => ?_
  refine Sat.require (C := retaining dep) (fun _ => ?_) fun _ _ _ => hinert
  obtain ⟨hsource, horg⟩ := Db.run?_some (activeRun_returns hret).1
  refine (Sat.tracked (C := retaining dep) hiv (submitInSession_settles _ hiv hinert)).mono
    (fun a past u h => ?_) fun _ _ _ h => h.1
  obtain ⟨source', hsource', horg', -, hwanted⟩ := (hxv.trans h.2.1).run hix hsource
  refine ⟨source', hsource', horg'.trans horg, ?_⟩
  have hsettles := h.1
  rw [hwanted]
  exact hsettles

end JobControlPlane

namespace RunManifestService

theorem SameReplay.wanted_eq {run : Run} {replay : RunReplay} {s : NewReplay}
    {source : ReplaySource} (h : SameReplay run replay s source) :
    run.wanted = { source.run.wanted with parentRunId := some s.sourceRunId } := by
  simp only [Run.wanted, h.kind, h.project, h.version, h.parent, h.spec]

/-- A replay is of the manifest that the call was given, which is the recorded manifest of
its source. -/
structure Replays (sourceRunId : Uuid) (stored : RunManifest) (a : ReplayCreation)
    (past : List (Event (system dep (services dep)))) (w : World) : Prop where
  lineage : ∃ replay, w.db.runReplays.lookup a.runId = some replay ∧ a.replay.Same replay
  expected : a.replay.expectedManifestSha256 = stored.sha256
  classification : a.replay.classification = stored.determinism
  manifest : ∃ e ∈ past, ∃ facts, e.before.db.runExecutionFacts.lookup sourceRunId = some facts ∧
    facts.manifestArtifactId = some a.replay.sourceManifestArtifactId ∧
    facts.manifestSha256 = some stored.sha256

/-- What a replay submission answers. -/
def SubmitsReplay (s : NewReplay) (a : ReplayCreation)
    (past : List (Event (system dep (services dep)))) (w : World) : Prop :=
  (∃ source, w.db.runs.lookup s.sourceRunId = some source ∧
    source.organizationId = s.who.organizationId ∧ source.projectId = s.projectId ∧
    Settles s.who.organizationId s.idempotencyKey a.runId a.run a.created
      { source.wanted with parentRunId := some s.sourceRunId } past w) ∧
  Replays s.sourceRunId s.expected a past w

theorem sat_insertReplay {policy : Option QuotaPolicyValues} {s : NewReplay} {now : Instant}
    (hinert : Inert past) :
    Sat (retaining dep) (SubmitsReplay s) Leaves (write (.replay policy s now)) past w := by
  refine Sat.perform (C := retaining dep) (fun _ _ _ _ => trivial)
    (fun v a v' u _ hi hmay hret hu _ => ?_) fun _ _ _ _ _ _ _ _ _ => .cons rfl hinert
  have hi' := (Op.keeps hi hmay.1 hret).1
  have hlater := Op.retains hi hmay.1 hmay.2 hret
  obtain ⟨db, hbody, rfl⟩ := transact_returns hret
  obtain ⟨-, source, hrows, hanswer⟩ := insertReplay_changes hi.db hbody
  obtain ⟨hsource, horg⟩ := Db.run?_some hrows.run
  obtain ⟨source', hsource', horg', -, hwanted⟩ := (hlater.trans hu).run hi hsource
  have hproject : source'.projectId = s.projectId :=
    (congrArg Wanted.projectId hwanted).trans hrows.project
  obtain ⟨runId, run, replay, created⟩ := a
  cases hanswer with
  | existing hdb hcreated hkey hlineage hsame =>
    dsimp only at hdb hcreated hkey hlineage hsame
    subst hdb hcreated
    refine ⟨⟨source', hsource', horg'.trans horg, hproject, ?_⟩,
      ⟨hu.replays _ _ hlineage, hsame.expected, hsame.classification,
        ⟨_, List.mem_cons_self, source.facts, hrows.facts, ?_, hrows.sha256⟩⟩⟩
    · rw [hwanted]
      exact settles_existing hi hu hkey hsame.wanted_eq (.cons rfl hinert)
    · exact hrows.artifact.trans (congrArg some hsame.manifest.symm)
  | created userId hcreated hkey hid hrun hreplay hruns hreplays =>
    dsimp only at hcreated hid hrun hreplay
    subst hcreated hid hrun hreplay
    refine ⟨⟨source', hsource', horg'.trans horg, hproject, ?_⟩, ⟨hu.replays _ _ ?_, rfl, rfl,
      ⟨_, List.mem_cons_self, source.facts, hrows.facts, hrows.artifact, hrows.sha256⟩⟩⟩
    · rw [hwanted]
      refine settles_created hi' hu hkey ?_ rfl rfl rfl
      rw [hruns]
      exact AList.lookup_insert _
    · rw [hreplays]
      exact AList.lookup_insert _

theorem loadManifest_inert {artifact : Artifact} {runId : Uuid} {stored : RunManifest}
    (hi : w.Inv dep) (hinert : Inert past) :
    Sat (retaining dep) (fun m past _ => m = stored ∧ Inert past) Leaves
      (loadManifest artifact runId stored) past w := by
  refine Sat.require (C := retaining dep) (fun _ => ?_) fun _ _ _ => hinert
  refine sat_look_inert hi hinert fun _ u _ hinert _ _ _ _ => ?_
  refine Sat.found (C := retaining dep) (fun object _ => ?_) fun _ _ _ => hinert
  refine Sat.require (C := retaining dep) (fun _ => ?_) fun _ _ _ => hinert
  exact sat_settled fun _ _ => ⟨rfl, hinert⟩

theorem submitReplay_settles (who : JobActor) (projectId sourceRunId : Uuid) (key : String)
    (stored : RunManifest) (hi : w.Inv dep) :
    Sat (retaining dep) (SubmitsReplay ⟨who, projectId, sourceRunId, key, stored⟩) Leaves
      (submitReplay who projectId sourceRunId key stored) [] w := by
  refine Sat.require (C := retaining dep) (fun _ => ?_) fun _ _ _ => .nil
  refine sat_read_inert hi .nil fun _ _ _ u _ hinert _ _ _ _ hiu => ?_
  refine sat_read_inert hiu hinert fun _ source _ v _ hinert _ _ _ _ hiv => ?_
  refine Sat.bind (C := retaining dep) hiv ((Sat.tracked (C := retaining dep) hiv
    (loadManifest_inert hiv hinert)).mono (fun expected past u h => ?_) fun _ _ _ h => h.1)
  obtain ⟨⟨rfl, hinert⟩, -, hiu⟩ := h
  refine sat_look_inert hiu hinert fun _ v _ hinert _ _ _ hiv => ?_
  exact sat_look_inert hiv hinert fun _ _ _ hinert _ _ _ _ => sat_insertReplay hinert

end RunManifestService

end Calls

/-! ## Every run -/

/-- The key of a call that submits a run. -/
def ServiceCall.key? : ServiceCall → Option (Uuid × String)
  | .submit who _ key => some (who.organizationId, key)
  | .retry who _ key => some (who.organizationId, key)
  | .submitReplay who _ _ key _ => some (who.organizationId, key)
  | _ => none

/-- The call says that it has created the run. -/
def ServiceCall.created : (c : ServiceCall) → c.Value → Bool
  | .submit .., a => SubmissionResult.created a
  | .retry .., a => SubmissionResult.created a
  | .submitReplay .., a => RunManifestService.ReplayCreation.created a
  | _, _ => false

/-- What each of the calls that submit a run answers. -/
def Answers : (c : ServiceCall) → c.Value → List (Event (system dep (services dep))) → World → Prop
  | .submit who submission key, a, past, w =>
    let a : SubmissionResult := a
    ∃ spec, submission.spec = some spec ∧
      Settles who.organizationId key a.runId a.run a.created
        ⟨submission.kind, submission.projectId, submission.corpusVersionId, none, spec.sha256⟩
        past w
  | .retry who runId key, a, past, w =>
    let a : SubmissionResult := a
    ∃ source, w.db.runs.lookup runId = some source ∧
      source.organizationId = who.organizationId ∧
      Settles who.organizationId key a.runId a.run a.created
        { source.wanted with parentRunId := some runId } past w
  | .submitReplay who projectId sourceRunId key stored, a, past, w =>
    RunManifestService.SubmitsReplay ⟨who, projectId, sourceRunId, key, stored⟩ a past w
  | _, _, _, _ => True

theorem Answers.made {c : ServiceCall} {a : c.Value} {organizationId : Uuid} {key : String}
    {past : List (Event (system dep (services dep)))} {w : World}
    (hkey : c.key? = some (organizationId, key)) (ha : Answers c a past w)
    (hcreated : c.created a = true) : ∃ e ∈ past, e.Flips (HasRun organizationId key) := by
  cases c with
  | submit who submission k =>
    cases hkey
    obtain ⟨spec, -, hsettles⟩ := ha
    exact hsettles.made hcreated
  | retry who runId k =>
    cases hkey
    obtain ⟨source, -, -, hsettles⟩ := ha
    exact hsettles.made hcreated
  | submitReplay who projectId sourceRunId k stored =>
    cases hkey
    obtain ⟨⟨source, -, -, -, hsettles⟩, -⟩ := ha
    exact hsettles.made hcreated
  | _ => cases hkey

/-- What a call leaves that raises; the other calls are of no interest. -/
def Gives (c : ServiceCall) (_ : Error) (past : List (Event (system dep (services dep))))
    (_ : World) : Prop :=
  c.key?.isSome = true → Inert past

theorem ServiceCall.answers (c : ServiceCall) (w : World) (hi : w.Inv dep) :
    Sat (retaining dep) (Answers c) (Gives c) (c.prog dep) [] w := by
  cases c with
  | submit who submission key =>
    exact (JobControlPlane.submit_settles who submission key hi).mono (fun _ _ _ h => h)
      fun _ _ _ h _ => h
  | retry who runId key =>
    exact (JobControlPlane.retry_settles who runId key hi).mono (fun _ _ _ h => h)
      fun _ _ _ h _ => h
  | submitReplay who projectId sourceRunId key stored =>
    exact (RunManifestService.submitReplay_settles who projectId sourceRunId key stored hi).mono
      (fun _ _ _ h => h) fun _ _ _ h _ => h
  | _ =>
    refine Sat.mono (C := retaining dep) (fun _ _ _ _ => trivial) (fun _ _ _ _ h => ?_)
      (Sat.free (C := retaining dep) (fun _ _ _ _ => trivial) _ _ _)
    cases h

section Law

variable {memberships : List Membership} {cfg : ServiceConfig dep}

/-- The rows of a submission, each there once. -/
structure Db.Evidence (db : Db) (runId : Uuid) : Prop where
  reservation : Table.HasOne (fun r : QuotaReservation => r.runId = runId) db.quotaReservations
  event : ∃ e, db.runEvents.lookup (runId, 1) = some e
  dispatch : Table.HasOne (OutboxMessage.Dispatches runId) db.outboxMessages
  audit : Table.HasOne (AuditEvent.Submits runId) db.auditEvents

theorem Db.Inv.evidence {db : Db} (hi : db.Inv) {runId : Uuid} {run : Run}
    (hrun : db.runs.lookup runId = some run) : db.Evidence runId where
  reservation := hi.reserved.one hrun
  event := by
    have hlog := hi.log.consistent hrun
    have hfirst := (hlog.dense 1).mpr ⟨Nat.le_refl _, hlog.last_pos⟩
    simp only [runRecord, Option.isSome_map] at hfirst
    exact Option.isSome_iff_exists.mp hfirst
  dispatch := hi.submitted.dispatched hrun
  audit := hi.submitted.audited hrun

/-- The worlds that the operations of the calls have left, and the present one. -/
def Seen (cfg : ServiceConfig dep) (w : World) : Prop :=
  w = cfg.world ∨ ∃ j ∈ cfg.jobs, ∃ e ∈ j.history, e.after = w

/-- Whoever submits under the key. -/
structure Idempotent (cfg : ServiceConfig dep) (organizationId : Uuid) (key : String) : Prop where
  /-- There has never been but one run under the key. -/
  one : ∀ {w w' id id'}, Seen cfg w → Seen cfg w' → HoldsKey organizationId key id w →
    HoldsKey organizationId key id' w' → id = id'
  rows : ∀ {id}, HoldsKey organizationId key id cfg.world → cfg.world.db.Evidence id
  answers : ∀ j ∈ cfg.jobs, j.call.key? = some (organizationId, key) → ∀ a, j.Returned a →
    Answers j.call a j.history cfg.world
  once : ∀ {i k : Nat} {j l : Job (system dep (services dep))}, cfg.jobs[i]? = some j →
    cfg.jobs[k]? = some l → j.call.key? = some (organizationId, key) →
    l.call.key? = some (organizationId, key) → ∀ a b, j.Returned a → l.Returned b →
    j.call.created a = true → l.call.created b = true → i = k
  raises : ∀ j ∈ cfg.jobs, j.call.key? = some (organizationId, key) → ∀ e, j.Raised e →
    Inert j.history

/-- **Idempotent submission.** Whatever runs next to the submissions, retries and replays
under a key, as long as no project is erased. -/
theorem submissions_idempotent (h : Reachable (unerased dep) (World.initial memberships) cfg)
    (organizationId : Uuid) (key : String) : Idempotent cfg organizationId key := by
  have hlawful := lawful_reachable h
  have hrespects : Respects ((base dep (services dep)).lawful (unerased dep)) (World.Inv dep) :=
    ⟨fun hi hG hret => (Op.keeps hi hG.2.2 hret).1, fun hi => (Tick.keeps _ hi).1⟩
  have hevolves : Evolves ((base dep (services dep)).lawful (unerased dep)) (World.Inv dep)
      (KeepsKey organizationId key) :=
    ⟨.refl _ _, .trans,
      fun hi hG hret id hholds => hholds.later (Op.retains hi hG.2.2 hG.1 hret) hi,
      fun hi id hholds => hholds.later (Tick.retains _ _ hi) hi⟩
  have hstart := World.inv_initial dep memberships
  obtain ⟨hi, hjobs⟩ := (retaining dep).sound Answers Gives
    (fun _ hG => ⟨hG.2.2, hG.1⟩) (fun c w hi => c.answers w hi) hlawful hstart
  have hanswers : ∀ j ∈ cfg.jobs, ∀ a, j.Returned a → Answers j.call a j.history cfg.world :=
    fun j hj a ha => (hjobs j hj _ ha).returned rfl hi
  have hsole : SoleMaker (HasRun organizationId key) cfg :=
    SoleMaker.reachable hrespects hevolves
      (fun hkeeps ⟨id, hholds⟩ => ⟨id, hkeeps id hholds⟩) hlawful hstart
  have hseen : ∀ {w id}, Seen cfg w → HoldsKey organizationId key id w →
      HoldsKey organizationId key id cfg.world := by
    rintro w id (rfl | ⟨j, hj, e, he, rfl⟩) hholds
    · exact hholds
    · exact events_later (R := KeepsKey organizationId key) (.refl _ _) .trans
        (fun hs hstep => hevolves.step hstep (hrespects.steps hs hstart)) hlawful
        j hj e he id hholds
  refine ⟨fun hw hw' hholds hholds' => ?_, fun hholds => ?_, fun j hj _ => hanswers j hj,
    fun hj hl hkey hkey' a b ha hb hcreated hcreated' => ?_, fun j hj hkey e he => ?_⟩
  · obtain ⟨run, hrun, horg, hk⟩ := hseen hw hholds
    obtain ⟨run', hrun', horg', hk'⟩ := hseen hw' hholds'
    exact hi.db.log.keys hrun hrun' (horg.trans horg'.symm) (hk.trans hk'.symm)
  · obtain ⟨run, hrun, -, -⟩ := hholds
    exact hi.db.evidence hrun
  · have hmade := (hanswers _ (List.mem_of_getElem? hj) a ha).made hkey hcreated
    have hmade' := (hanswers _ (List.mem_of_getElem? hl) b hb).made hkey' hcreated'
    exact hsole.unique _ _ _ _ hj hl hmade hmade'
  · exact (hjobs j hj _ he).raised rfl hi (by rw [hkey]; rfl)

end Law

/-! ### Two submissions -/

/-- Call 3 submits under the key of call 2 again, and call 4 another kind of run. -/
def resubmission : List (Move Small) :=
  smallSubmission ++ .start (ServiceCall.submit ⟨"owner", 1, none⟩
    ⟨0, .distribution, some smallSpec, none⟩ "key") :: acts Small 3 3 ++
  .start (ServiceCall.submit ⟨"owner", 1, none⟩ ⟨0, .evaluate, some smallSpec, none⟩ "key") ::
    acts Small 4 3

/-- What a call has said about the run, if it has answered. -/
def saysCreated (j : Job Small) : Option Bool :=
  match j.rest with
  | some (.ret a) => some (j.call.created a)
  | _ => none

def erasesNone (_ : Config Small) (β : Type) (o : Op β) : Bool := (Op.erase? o).isNone

theorem erasesNone_reachable {schedule : List (Move Small)} {cfg : Config Small}
    (h : runIf (M := Small) erasesNone smallStart schedule = some cfg) :
    Reachable (unerased .small) (World.initial smallMembers) cfg :=
  runIf_steps (M := Small) (G := unerased .small)
    (fun {_ _ _ _} _ hcheck => Option.isNone_iff_eq_none.mp hcheck) h

theorem submissions_idempotent_resubmission :
    ((runIf (M := Small) erasesNone smallStart resubmission).map fun cfg =>
      (cfg.world.db.runs.keys, (cfg.jobs.drop 2).map saysCreated)) =
        some ([1], [some true, some false, none]) ∧
    ∀ cfg : Config Small, runIf (M := Small) erasesNone smallStart resubmission = some cfg →
      Idempotent cfg 1 "key" :=
  ⟨by decide +kernel, fun _ h => submissions_idempotent (erasesNone_reachable h) 1 "key"⟩

end CorpusKit
