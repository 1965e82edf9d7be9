import CorpusKit.Properties.Retention

/-! # The bytes of active artifacts

A call that stores an artifact puts the object first and commits the row after it. A
purge deletes only the objects of tombstoned rows; a reconciliation deletes the objects
it found without a row, one look at the rows for a page of them. As long as no call is
between its put of an object and its commit while a reconciliation is between that look
and the deletion of the object, every active row has its bytes. -/

namespace CorpusKit

open Transaction Program Interleaving

variable {dep : Deployment} {calls : Calls}

/-! ## Keys -/

/-- The object a reconciliation deletes, and the rows it has looked at. -/
def Request.collect? {β : Type} : Request β → Option (String × Db)
  | .collect key seen => some (key, seen)
  | _ => none

def Op.collect? {β : Type} : Op β → Option (String × Db)
  | .request r => r.collect?
  | _ => none

theorem Op.Owes.collectRead {β : Type} {o : Op β} {w : World} (h : o.Owes dep w) {key : String}
    {seen : Db} (hcollect : Op.collect? o = some (key, seen)) : CollectRead w key seen := by
  cases o with
  | query q => cases hcollect
  | write action => cases hcollect
  | request r =>
    cases r with
    | collect gone seen' =>
      cases hcollect
      exact h
    | _ => cases hcollect

/-- The transactions that insert the row of an object put before. -/
def Action.stores {β : Type} : Action β → Bool
  | .upload .. => true
  | .adopt .. => true
  | .finalize .. => true
  | _ => false

def Op.stores {β : Type} : Op β → Bool
  | .write action => action.stores
  | _ => false

/-- The calls that put an object and commit its row. -/
def ServiceCall.stores : ServiceCall → Bool
  | .createArtifact .. => true
  | .adopt .. => true
  | .finalize .. => true
  | _ => false

/-- The call has put this object, or has found it there. -/
def HasPut (key : StorageKey) (past : List (Event (system dep calls))) : Prop :=
  ∃ e ∈ past, Op.put? e.op = some key ∧ e.after.objects.lookup key ≠ none

/-- The call has not come to its commit. -/
def Uncommitted (past : List (Event (system dep calls))) : Prop :=
  ∀ e ∈ past, Op.stores e.op = false

/-- The call is running, has put this object, and its commit is still to come. -/
def Pending (key : StorageKey) (j : Job (system dep calls)) : Prop :=
  j.running = true ∧ HasPut key j.history ∧ Uncommitted j.history

theorem HasPut.grow {key : StorageKey} {past past' : List (Event (system dep calls))}
    (h : HasPut key past) (hs : past <:+ past') : HasPut key past' := by
  obtain ⟨e, he, hput⟩ := h
  exact ⟨e, hs.subset he, hput⟩

theorem Uncommitted.cons {past : List (Event (system dep calls))} (h : Uncommitted past)
    {e : Event (system dep calls)} (he : Op.stores e.op = false) : Uncommitted (e :: past) := by
  intro e' he'
  rcases List.mem_cons.mp he' with rfl | hold
  · exact he
  · exact h e' hold

theorem Uncommitted.tail {past : List (Event (system dep calls))} {e : Event (system dep calls)}
    (h : Uncommitted (e :: past)) : Uncommitted past :=
  fun e' he' => h e' (List.mem_cons_of_mem _ he')

/-! ## Which operations insert and remove -/

section Operations

variable {β : Type} {b : β} {w w' : World}

/-- Only a transaction that has read a quota policy inserts an artifact. -/
theorem Change.artifact_old {permit : Permit} {db db' : Db} (hc : Change permit db db')
    (hpermit : ∀ org, permit.policy org = none) {id : Uuid}
    (hnone : db.artifacts.lookup id = none) : db'.artifacts.lookup id = none := by
  cases hc with
  | adopt time mediaType schemaId hrun hstate hask hfree horg hevent hres hown hactive hkept hsize
      hplace hkeyed hscope hkey hpolicy =>
    rw [hpermit] at hpolicy
    cases hpolicy
  | store artifact hproject hkind hactive hsize hkeyed hscope hkey hpolicy =>
    rw [hpermit] at hpolicy
    cases hpolicy
  | @tombstone id' artifact time hp hrow hactive =>
    have hne : id ≠ id' := by
      rintro rfl
      rw [hrow] at hnone
      cases hnone
    exact (AList.lookup_insert_ne hne).trans hnone
  | @discard id' artifact time usage hp hrow hdead husage =>
    have hne : id ≠ id' := by
      rintro rfl
      rw [hrow] at hnone
      cases hnone
    exact (AList.lookup_insert_ne hne).trans hnone
  | schedule hp hproject horg hactive hquiet =>
    exact Table.lookup_mapRows.trans (by rw [hnone]; rfl)
  | erase hp hproject horg hdead hready husages =>
    by_contra hsome
    obtain ⟨row, hrow⟩ := Option.ne_none_iff_exists'.mp hsome
    rw [(Table.lookup_deleteWhere.mp hrow).1] at hnone
    cases hnone
  | _ => exact hnone

theorem Changes.artifact_old {permit : Permit} {db db' : Db} (hc : Changes permit db db')
    (hpermit : ∀ org, permit.policy org = none) {id : Uuid}
    (hnone : db.artifacts.lookup id = none) : db'.artifacts.lookup id = none := by
  induction hc with
  | refl => exact hnone
  | tail _ hstep ih => exact hstep.artifact_old hpermit ih

/-- An object that is there stays, unless a purge or a reconciliation deletes it. -/
theorem Op.objects_kept {o : Op β} (h : Returns (o.exec dep) w b w') {key : StorageKey}
    (hkey : w.objects.lookup key ≠ none) : w'.objects.lookup key ≠ none ∨
      (∃ id read cutoff, o.purge? = some (id, read, cutoff) ∧ read.storageKey = key) ∨
        ∃ seen, o.collect? = some (key.render, seen) := by
  cases o with
  | query q =>
    obtain ⟨-, rfl⟩ := query_returns h
    exact .inl hkey
  | write action =>
    obtain ⟨db, -, rfl⟩ := transact_returns h
    exact .inl hkey
  | request r =>
    have h : Returns r.body w b w' := h
    cases r with
    | put stored sha256 sizeBytes mediaType =>
      obtain ⟨rfl, -⟩ | ⟨-, rfl⟩ := putObject_returns h
      · exact .inl hkey
      · by_cases hsame : key = stored
        · rw [hsame, AList.lookup_insert]
          exact .inl nofun
        · exact .inl fun hnone => hkey ((AList.lookup_insert_ne hsame).symm.trans hnone)
    | purgeObject id read cutoff =>
      rw [purgeObject_returns h]
      by_cases hsame : key = read.storageKey
      · exact .inr (.inl ⟨id, read, cutoff, rfl, hsame.symm⟩)
      · exact .inl fun hnone => hkey ((AList.lookup_erase_ne hsame).symm.trans hnone)
    | collect gone seen =>
      rw [collect_returns h]
      by_cases hsame : key.render = gone
      · subst hsame
        exact .inr (.inr ⟨seen, rfl⟩)
      · obtain ⟨object, hobject⟩ := Option.ne_none_iff_exists'.mp hkey
        refine .inl (Option.ne_none_iff_exists'.mpr ⟨object, Table.lookup_deleteWhere.mpr ⟨hobject, ?_⟩⟩)
        exact beq_eq_false_iff_ne.mpr hsame
    | publish message =>
      rw [publish_returns h]
      exact .inl hkey

/-- A `put` that returned leaves the object in the store. -/
theorem Op.put_stored {o : Op β} (h : Returns (o.exec dep) w b w') {key : StorageKey}
    (hput : o.put? = some key) : w'.objects.lookup key ≠ none := by
  cases o with
  | query q => cases hput
  | write action => cases hput
  | request r =>
    cases r with
    | put stored sha256 sizeBytes mediaType =>
      cases hput
      have h : Returns (putObject key sha256 sizeBytes mediaType) w b w' := h
      obtain ⟨rfl, object, hobject, -⟩ | ⟨-, rfl⟩ := putObject_returns h
      · rw [hobject]
        nofun
      · rw [AList.lookup_insert]
        nofun
    | _ => cases hput

/-- The row of artifact `id` is inserted. -/
def Inserts (w w' : World) (id : Uuid) (row : Artifact) : Prop :=
  w.db.artifacts.lookup id = none ∧ w'.db.artifacts.lookup id = some row

theorem not_inserts_self {id : Uuid} {row : Artifact} : ¬ Inserts w w id row := by
  rintro ⟨hnone, hsome⟩
  rw [hnone] at hsome
  cases hsome

/-- The operation inserts no artifact and is not the commit of a put. -/
def Quiet (dep : Deployment) (β : Type) (o : Op β) : Prop :=
  o.stores = false ∧ ∀ {w b w' id row}, w.Inv dep → o.Owes dep w → Returns (o.exec dep) w b w' →
    ¬ Inserts w w' id row

theorem query_quiet (q : World → Except Error β) : Quiet dep β (.query q) := by
  refine ⟨rfl, fun _ _ h => ?_⟩
  obtain ⟨-, rfl⟩ := query_returns h
  exact not_inserts_self

theorem request_quiet (r : Request β) : Quiet dep β (.request r) := by
  refine ⟨rfl, fun _ _ h => ?_⟩
  have h : Returns r.body _ _ _ := h
  rintro ⟨hnone, hsome⟩
  rw [r.db_eq h, hnone] at hsome
  cases hsome

theorem write_quiet {action : Action β} (hstores : action.stores = false)
    (hpermit : ∀ org, action.permit.policy org = none) : Quiet dep β (.write action) := by
  refine ⟨hstores, fun hi howes h => ?_⟩
  obtain ⟨db, hbody, rfl⟩ := transact_returns h
  rintro ⟨hnone, hsome⟩
  rw [(action.changes hi.db howes hbody).artifact_old hpermit hnone] at hsome
  cases hsome

end Operations

/-! ## What the programs put and commit -/

/-- The contract of the calls that store an artifact: the row they insert is that of an
object put before, and nothing was committed before. -/
def storing (dep : Deployment) (calls : Calls) : Contract (system dep calls) where
  inv := World.Inv dep
  evolve := World.Later
  may := fun _ o w => Op.Owes dep w o
  must := fun past _ o w => ∀ {b w' id row}, Returns (o.exec dep) w b w' → Inserts w w' id row →
    HasPut row.storageKey past ∧ Uncommitted past
  refl := World.Later.refl
  trans := World.Later.trans
  op := fun hi howes _ h => Op.keeps hi howes h
  tick := fun hi => Tick.keeps _ hi

/-- A program of quiet operations. -/
theorem All.quiet_sat {α : Type} {p : Service α} (hp : p.All (Quiet dep))
    {past : List (Event (system dep calls))} {w : World} (hpast : Uncommitted past) :
    Sat (storing dep calls) (fun _ past' _ => Uncommitted past' ∧ past <:+ past')
      (fun _ past' _ => Uncommitted past' ∧ past <:+ past') p past w := by
  induction p generalizing past w with
  | ret a => exact fun _ _ _ => ⟨hpast, List.suffix_rfl⟩
  | raise e => exact fun _ _ _ => ⟨hpast, List.suffix_rfl⟩
  | op o next ih =>
    intro v hv hi howes
    refine ⟨fun h hinserts => absurd hinserts (hp.1.2 hi howes h), ?_⟩
    refine (ih _ (hp.2 _) (hpast.cons hp.1.1)).mono ?_ ?_
    · exact fun _ _ _ h => ⟨h.1, (List.suffix_cons _ _).trans h.2⟩
    · exact fun _ _ _ h => ⟨h.1, (List.suffix_cons _ _).trans h.2⟩


/-- Quiet operations owe nothing, whatever was done before. -/
theorem quiet_owes {α : Type} {p : Service α} (hp : p.All (Quiet dep))
    {past : List (Event (system dep calls))} {w : World} :
    Sat (storing dep calls) (fun _ _ _ => True) (fun _ _ _ => True) p past w := by
  refine Sat.all (fun past β o v ho hiv howes => ?_) hp past w
  intro b w' id row hret hinserts
  exact absurd hinserts (ho.2 hiv howes hret)

/-- A quiet part of a program, with what it leaves for the rest. -/
theorem quiet_bind {α β : Type} {Q : β → List (Event (system dep calls)) → World → Prop}
    {p : Service α} {f : α → Service β} (hp : p.All (Quiet dep))
    {past : List (Event (system dep calls))} {w : World} (hi : w.Inv dep) (hpast : Uncommitted past)
    (h : ∀ a past' v, w.Later v → v.Inv dep → Uncommitted past' → past <:+ past' →
      Sat (storing dep calls) Q (fun _ _ _ => True) (f a) past' v) :
    Sat (storing dep calls) Q (fun _ _ _ => True) (p >>= f) past w := by
  refine Sat.bind hi (((All.quiet_sat hp hpast).tracked hi).mono (fun a past' v hv => ?_)
    fun _ _ _ _ => trivial)
  exact h a past' v hv.2.1 hv.2.2 hv.1.1 hv.1.2

/-- The put, and what it leaves for the commit. -/
theorem put_sat {key : StorageKey} {sha256 : Sha256} {sizeBytes : Nat} {mediaType : String}
    {past : List (Event (system dep calls))} {w : World} (hpast : Uncommitted past) :
    Sat (storing dep calls) (fun _ past' _ => Uncommitted past' ∧ HasPut key past')
      (fun _ _ _ => True) (ask (.put key sha256 sizeBytes mediaType)) past w := by
  refine Sat.perform (fun v _ hiv howes b w' id row hret hinserts => ?_)
    (fun v a v' u _ _ _ hret _ _ => ?_) fun _ _ _ _ _ _ _ _ _ => trivial
  · have howes : Op.Owes dep v (.request (.put key sha256 sizeBytes mediaType)) := howes
    exact absurd hinserts ((request_quiet _).2 hiv howes hret)
  · have hret : Returns ((Op.request (.put key sha256 sizeBytes mediaType)).exec dep) v a v' := hret
    exact ⟨hpast.cons rfl, _, List.mem_cons_self .., rfl, Op.put_stored hret rfl⟩

theorem put_bind {β : Type} {Q : β → List (Event (system dep calls)) → World → Prop}
    {key : StorageKey} {sha256 : Sha256} {sizeBytes : Nat} {mediaType : String}
    {f : Unit → Service β} {past : List (Event (system dep calls))} {w : World} (hi : w.Inv dep)
    (hpast : Uncommitted past)
    (h : ∀ past' v, w.Later v → v.Inv dep → Uncommitted past' → HasPut key past' →
      Sat (storing dep calls) Q (fun _ _ _ => True) (f ()) past' v) :
    Sat (storing dep calls) Q (fun _ _ _ => True) (ask (.put key sha256 sizeBytes mediaType) >>= f)
      past w := by
  refine Sat.bind hi (((put_sat hpast).tracked hi).mono (fun _ past' v hv => ?_) fun _ _ _ _ => trivial)
  exact h past' v hv.2.1 hv.2.2 hv.1.1 hv.1.2

/-- A put whose failure the caller reports. -/
theorem store_bind {β : Type} {Q : β → List (Event (system dep calls)) → World → Prop}
    {key : StorageKey} {sha256 : Sha256} {sizeBytes : Nat} {mediaType operation : String}
    {f : Unit → Service β} {past : List (Event (system dep calls))} {w : World} (hi : w.Inv dep)
    (hpast : Uncommitted past)
    (h : ∀ past' v, w.Later v → v.Inv dep → Uncommitted past' → HasPut key past' →
      Sat (storing dep calls) Q (fun _ _ _ => True) (f ()) past' v) :
    Sat (storing dep calls) Q (fun _ _ _ => True)
      (store key sha256 sizeBytes mediaType operation >>= f) past w := by
  have hstore : Sat (storing dep calls) (fun _ past' _ => Uncommitted past' ∧ HasPut key past')
      (fun _ _ _ => True) (store key sha256 sizeBytes mediaType operation) past w := by
    refine Sat.handle hi ((put_sat hpast).mono (fun _ _ _ hput => hput) fun e _ _ _ => ?_)
    split <;> exact fun _ _ _ => trivial
  refine Sat.bind hi ((hstore.tracked hi).mono (fun _ past' v hv => ?_) fun _ _ _ _ => trivial)
  exact h past' v hv.2.1 hv.2.2 hv.1.1 hv.1.2

/-- The commit of what was put. -/
theorem commit_sat {β : Type} {action : Action β} {past : List (Event (system dep calls))}
    {w : World} {E : Error → List (Event (system dep calls)) → World → Prop}
    (hpast : Uncommitted past)
    (hkey : ∀ v b db id row, w.Later v → v.Inv dep → Op.Owes dep v (.write action) →
      Returns (action.body dep) v.db b db → Inserts v { v with db } id row →
        HasPut row.storageKey past)
    (herr : ∀ e past v, E e past v) :
    Sat (storing dep calls) (fun _ _ _ => True) E (write action) past w := by
  refine Sat.perform (fun v hv hiv howes b w' id row hret hinserts => ?_)
    (fun _ _ _ _ _ _ _ _ _ _ => trivial) fun _ _ _ _ _ _ _ _ _ => herr _ _ _
  obtain ⟨db, hbody, rfl⟩ := transact_returns hret
  exact ⟨hkey v b db id row hv hiv howes hbody hinserts, hpast⟩

theorem look_quiet {α : Type} (f : World → α) : (look f).All (Quiet dep) := .perform (query_quiet _)

theorem read_quiet {α : Type} (body : DbTx α) : (read body).All (Quiet dep) := .perform (query_quiet _)

theorem pure_quiet {α : Type} (a : α) : (pure a : Service α).All (Quiet dep) := trivial

theorem throw_quiet {α : Type} (e : Error) : (throw e : Service α).All (Quiet dep) := trivial

theorem ite_quiet {α : Type} {p : Prop} [Decidable p] {m n : Service α} (hm : m.All (Quiet dep))
    (hn : n.All (Quiet dep)) : (if p then m else n).All (Quiet dep) := by
  split
  · exact hm
  · exact hn

namespace DurableRunStore

variable (reference : RunWorkflowReference)

theorem state_quiet : (state reference).All (Quiet dep) :=
  (read_quiet _).bind fun _ => pure_quiet _

theorem transition_quiet (t : Transition) : (transition reference t).All (Quiet dep) := by
  unfold transition
  generalize maxCasAttempts = attempts
  induction attempts with
  | zero => exact throw_quiet _
  | succ attempts ih =>
    refine Prog.All.bind (.perform (write_quiet rfl fun _ => rfl)) fun run => ?_
    refine ite_quiet (pure_quiet _) (ite_quiet (pure_quiet _) (ite_quiet ?_ (pure_quiet _)))
    refine (look_quiet _).bind fun now => ?_
    exact Prog.All.bind (.perform (write_quiet rfl fun _ => rfl)) fun changed =>
      ite_quiet (pure_quiet _) ih

theorem acknowledgeCancellation_quiet : (acknowledgeCancellation reference).All (Quiet dep) := by
  refine Prog.All.bind (p := requestCancellation reference) ?_ fun s =>
    ite_quiet (transition_quiet reference _) (pure_quiet _)
  exact (state_quiet reference).bind fun s => ite_quiet (transition_quiet reference _) (pure_quiet _)

end DurableRunStore

/-- The row an adoption inserts is that of the object it was given. -/
theorem DurableRunStore.commitAdoptedResult_inserts {db db' : Db} (hi : db.Inv)
    {policy : Option QuotaPolicyValues} {reference : RunWorkflowReference}
    {adopted : AdoptedArtifact} {now : Instant} {answer : ArtifactCommit}
    (h : Returns (commitAdoptedResult policy reference adopted now) db answer db') {id : Uuid}
    {row : Artifact} (hnone : db.artifacts.lookup id = none)
    (hsome : db'.artifacts.lookup id = some row) : row.storageKey = adopted.storageKey := by
  unfold commitAdoptedResult at h
  obtain ⟨run, s, hread, h⟩ := h.bind
  obtain ⟨hrow, -, -, rfl⟩ := readRun_returns hread
  obtain ⟨hrun, horg⟩ := Db.run?_some hrow
  obtain ⟨u, s, hreq, h⟩ := h.bind
  obtain ⟨hkey, rfl⟩ := hreq.require
  obtain ⟨hcancel, h⟩ | ⟨hlive, h⟩ := h.ite
  · have hstate : run.state = .cancelling ∨ run.state = .cancelled :=
      hcancel.elim (fun hstate => hstate) fun hasked => hi.log.asked hrun hasked
    have hchanges : Changes {} db db' ∧ _ := adoptCancelled_changes hi hrun hstate h
    rw [hchanges.1.artifact_old (fun _ => rfl) hnone] at hsome
    cases hsome
  · have hasked : run.cancellationRequestedAt = none := by
      by_contra hne
      exact hlive (.inr hne)
    obtain ⟨-, h⟩ | ⟨-, h⟩ := h.ite
    · rw [← (adoptAgain_returns h).1, hnone] at hsome
      cases hsome
    · obtain ⟨u, s, hreq, h⟩ := h.bind
      obtain ⟨hstate, rfl⟩ := hreq.require
      obtain ⟨-, -, -, hartifacts, -⟩ := adoptResult_changes hi hrun hstate hasked hkey h
      rw [hartifacts] at hsome
      obtain ⟨-, rfl⟩ | ⟨-, hold⟩ := Table.lookup_insert_cases hsome
      · rfl
      · rw [hnone] at hold
        cases hold

open DurableRunStore in
theorem ArtifactAdoptionService.adopt_stores (reference : RunWorkflowReference) (claim : StagedResult)
    {w : World} (hi : w.Inv dep) :
    Sat (storing dep calls) (fun _ _ _ => True) (fun _ _ _ => True) (adopt dep reference claim) [] w := by
  have hnil : Uncommitted ([] : List (Event (system dep calls))) := fun _ h => nomatch h
  have hacknowledge : (acknowledge reference).All (Quiet dep) :=
    (acknowledgeCancellation_quiet reference).bind fun _ => pure_quiet _
  have hrequested : (cancellationRequested reference).All (Quiet dep) :=
    (state_quiet reference).bind fun _ => pure_quiet _
  have hleave : ∀ {past : List (Event (system dep calls))} {v : World}, Uncommitted past →
      Sat (storing dep calls) (fun _ _ _ => True) (fun _ _ _ => True) (acknowledge reference) past v :=
    fun hpast => (All.quiet_sat hacknowledge hpast).mono (fun _ _ _ _ => trivial) fun _ _ _ _ => trivial
  refine quiet_bind (read_quiet _) hi hnil fun record past v _ hiv hpast _ => ?_
  refine quiet_bind (p := isAsked reference record) (ite_quiet (pure_quiet _) hrequested) hiv hpast
    fun asked past v _ hiv hpast _ => ?_
  split
  · exact hleave hpast
  refine quiet_bind hrequested hiv hpast fun asked past v _ hiv hpast _ => ?_
  split
  · exact hleave hpast
  refine put_bind hiv hpast fun past v _ hiv hpast hput => ?_
  refine quiet_bind (look_quiet _) hiv hpast fun now past v _ hiv hpast hsuffix => ?_
  have hput := hput.grow hsuffix
  refine quiet_bind (look_quiet _) hiv hpast fun policy past v _ hiv hpast hsuffix => ?_
  have hput := hput.grow hsuffix
  refine quiet_bind (look_quiet _) hiv hpast fun time past v _ hiv hpast hsuffix => ?_
  refine commit_sat hpast (fun x b db id row _ hix _ hret hinserts => ?_) fun _ _ _ => trivial
  rw [commitAdoptedResult_inserts hix.db hret hinserts.1 hinserts.2]
  exact hput.grow hsuffix

namespace RunManifestService

theorem manifestBuild_fresh {db db' : Db} {reference : RunWorkflowReference} {run : Run}
    {factsSha256 : Sha256} {outputs : List (Uuid × Artifact)}
    (h : Returns (manifestBuild reference) db (.fresh run factsSha256 outputs) db') :
    db.run? reference.organizationId reference.runId = some run := by
  unfold manifestBuild at h
  obtain ⟨row, s, hread, h⟩ := h.bind
  obtain ⟨hrow, -, rfl⟩ := runRow_returns hread
  obtain ⟨u, s, hreq, h⟩ := h.bind
  obtain ⟨u, s, hreq, h⟩ := h.bind
  obtain ⟨a, s, hget, h⟩ := h.bind
  obtain ⟨recorded, s, hfound, h⟩ := h.bind
  obtain ⟨u, s, hreq, h⟩ := h.bind
  split at h
  · obtain ⟨artifact, s, hactive, h⟩ := h.bind
    obtain ⟨u, s, hreq, h⟩ := h.bind
    obtain ⟨heq, -⟩ := h.pure
    cases heq
  · obtain ⟨u, s, hinputs, h⟩ := h.bind
    obtain ⟨heq, -⟩ := h.pure
    cases heq
    exact hrow

/-- The manifest is put under the key of the row that is committed: a run keeps its place. -/
theorem finalize_stores (reference : RunWorkflowReference) (observed : Observation) {w : World}
    (hi : w.Inv dep) :
    Sat (storing dep calls) (fun _ _ _ => True) (fun _ _ _ => True) (finalize dep reference observed)
      [] w := by
  have hnil : Uncommitted ([] : List (Event (system dep calls))) := fun _ h => nomatch h
  refine sat_query_event (C := storing dep calls) hi (fun v b w' id row hret hinserts => ?_)
    (fun v build u hv hiv hbuild hu hiu => ?_) fun _ _ _ _ _ _ _ _ => trivial
  · obtain ⟨-, rfl⟩ := query_returns hret
    exact absurd hinserts not_inserts_self
  cases build with
  | existing artifactId artifact =>
    refine quiet_bind (look_quiet _) hiu (hnil.cons rfl) fun now past x hx hix hpast _ => ?_
    refine (All.quiet_sat (Prog.All.bind (.perform (write_quiet rfl fun _ => rfl)) fun _ =>
      pure_quiet _) hpast).mono (fun _ _ _ _ => trivial) fun _ _ _ _ => trivial
  | fresh run factsSha256 outputs =>
    refine store_bind hiu (hnil.cons rfl) fun past x hx hix hpast hput => ?_
    refine quiet_bind (look_quiet _) hix hpast fun policy past y hy hiy hpast hsuffix => ?_
    have hput := hput.grow hsuffix
    refine quiet_bind (look_quiet _) hiy hpast fun now past z hz hiz hpast hsuffix => ?_
    refine commit_sat hpast (fun t b db id row ht hit _ hret hinserts => ?_) fun _ _ _ => trivial
    have hput := hput.grow hsuffix
    obtain ⟨-, run', hrow', -, hsame | hinsert⟩ := finalizeManifest_changes hret
    · have hold := hinserts.2
      rw [show ({ t with db } : World).db.artifacts = t.db.artifacts from hsame, hinserts.1] at hold
      cases hold
    · have hrow : v.db.run? reference.organizationId reference.runId = some run := by
        cases hrun : (manifestBuild reference).run v.db with
        | error e => rw [hrun] at hbuild; cases hbuild
        | ok r =>
          rw [hrun] at hbuild
          obtain ⟨answer, db'⟩ := r
          cases hbuild
          exact manifestBuild_fresh hrun
      obtain ⟨hrun, -⟩ := Db.run?_some hrow
      obtain ⟨hrun', -⟩ := Db.run?_some hrow'
      have hlater := hu.trans (hx.trans (hy.trans (hz.trans ht)))
      obtain ⟨old, hold, hmoved⟩ := hlater.db.runs _ _ hrun' (hiv.db.log.fresh _ _ hrun)
      rw [hrun] at hold
      cases hold
      have hkey : row.storageKey = manifestKey reference.runId run' observed.manifest.sha256 := by
        have hsome := hinserts.2
        rw [show ({ t with db } : World).db.artifacts = _ from hinsert] at hsome
        obtain ⟨-, rfl⟩ | ⟨-, hold⟩ := Table.lookup_insert_cases hsome
        · rfl
        · rw [hinserts.1] at hold
          cases hold
      have hplace : manifestKey reference.runId run' observed.manifest.sha256 =
          manifestKey reference.runId run observed.manifest.sha256 := by
        rw [hmoved.identity]
        rfl
      rw [hkey, hplace]
      exact hput

end RunManifestService

namespace ArtifactService

theorem create_stores (who : ArtifactActor) (upload : Upload) {w : World} (hi : w.Inv dep) :
    Sat (storing dep calls) (fun _ _ _ => True) (fun _ _ _ => True) (create dep who upload) [] w := by
  have hnil : Uncommitted ([] : List (Event (system dep calls))) := fun _ h => nomatch h
  refine Sat.require (fun hkind => ?_) fun _ _ _ => trivial
  refine quiet_bind (read_quiet _) hi hnil fun userId past v _ hiv hpast _ => ?_
  refine quiet_bind (read_quiet _) hiv hpast fun existing past v _ hiv hpast _ => ?_
  refine Sat.require (fun _ => ?_) fun _ _ _ => trivial
  refine quiet_bind (p := objectOf existing) ?_ hiv hpast fun object past v _ hiv hpast _ => ?_
  · cases existing with
    | none => exact pure_quiet _
    | some row => exact .perform (query_quiet _)
  split
  · exact Sat.ret fun _ _ _ => trivial
  refine store_bind hiv hpast fun past v _ hiv hpast hput => ?_
  refine quiet_bind (look_quiet _) hiv hpast fun created past v _ hiv hpast hsuffix => ?_
  have hput := hput.grow hsuffix
  refine quiet_bind (look_quiet _) hiv hpast fun policy past v _ hiv hpast hsuffix => ?_
  have hput := hput.grow hsuffix
  refine quiet_bind (look_quiet _) hiv hpast fun now past v _ hiv hpast hsuffix => ?_
  have hput := hput.grow hsuffix
  -- after the commit, only the row of a race is read
  refine Sat.handle hiv (Sat.bind hiv ((commit_sat hpast (fun x b db id row _ hix howes hret hinserts => ?_)
    fun e past v => ?_).mono (fun _ _ _ _ => Sat.ret fun _ _ _ => trivial) fun _ _ _ h => h))
  · obtain ⟨-, -, rfl, hinsert⟩ := insertUpload_changes howes hret
    have hsome := hinserts.2
    rw [show ({ x with db } : World).db.artifacts = _ from hinsert] at hsome
    obtain ⟨-, rfl⟩ | ⟨-, hold⟩ := Table.lookup_insert_cases hsome
    · exact hput
    · rw [hinserts.1] at hold
      cases hold
  · refine quiet_owes ?_
    split
    · refine (read_quiet _).bind fun raced => ?_
      split
      · exact ite_quiet (pure_quiet _) (throw_quiet _)
      · exact throw_quiet _
    · exact throw_quiet _

end ArtifactService

theorem ServiceCall.storing_sat (c : ServiceCall) (hc : c.stores = true) {w : World}
    (hi : w.Inv dep) :
    Sat (storing dep (services dep)) (fun _ _ _ => True) (fun _ _ _ => True) (c.prog dep) [] w := by
  cases c with
  | createArtifact who upload => exact ArtifactService.create_stores who upload hi
  | adopt reference claim => exact ArtifactAdoptionService.adopt_stores reference claim hi
  | finalize reference observed => exact RunManifestService.finalize_stores reference observed hi
  | _ => cases hc

/-! ## What is held for a key -/

/-- A row was read under this key: no other row can be inserted under it. -/
def Taken (w : World) (key : StorageKey) : Prop :=
  ∃ id read, ReadRow w.db id read ∧ read.storageKey = key

/-- The object is in the store, or the key is taken. -/
def Held (w : World) (key : StorageKey) : Prop := w.objects.lookup key ≠ none ∨ Taken w key

theorem Taken.later {w w' : World} {key : StorageKey} (h : Taken w key) (hl : w.Later w') :
    Taken w' key := by
  obtain ⟨id, read, hread, hkey⟩ := h
  exact ⟨id, read, hread.evolve hl.db, hkey⟩

/-- No row is inserted under a taken key. -/
theorem Taken.not_inserts {w w' : World} {key : StorageKey} (h : Taken w key) (hi' : w'.Inv dep)
    (hl : w.Later w') {id : Uuid} {row : Artifact} (hinserts : Inserts w w' id row) :
    row.storageKey ≠ key := by
  intro hkey
  obtain ⟨hnone, hsome⟩ := hinserts
  obtain ⟨readId, read, hread, rfl⟩ := h
  have hread' := hread.evolve hl.db
  obtain ⟨row', hrow'⟩ | hgone := hread'.held
  · obtain rfl : id = readId := by
      refine hi'.db.stored.unique hsome hrow' (.inr ?_)
      rw [hkey, (hread'.later row' hrow').same.storageKey]
    obtain ⟨old, hold, -⟩ := hl.db.artifacts id row' hrow' hread.fresh.1
    rw [hnone] at hold
    cases hold
  · have hproject : row.projectId = read.projectId := by
      have hkeys := (hi'.storage.keyed hsome).symm.trans (hkey.trans hread.keyed)
      simp only [artifactStorageKey, StorageKey.artifact.injEq] at hkeys
      exact hkeys.2.1
    obtain ⟨project, hlookup, -⟩ := hi'.lifecycle.artifacts hsome
    rw [hproject, hgone] at hlookup
    cases hlookup

/-! ## The law -/

/-- The call has inserted the row of artifact `id`. -/
def Inserted (j : Job (system dep calls)) (id : Uuid) (key : StorageKey) : Prop :=
  ∃ e ∈ j.history, ∃ row, Inserts e.before e.after id row ∧ row.storageKey = key

/-- At some time since `seen`, the call has been between its put of the object and its commit:
it has put the object, and its commit is still to come or has come since. Rows inserted later
have later identifiers. -/
def Overlaps (seen : Db) (key : StorageKey) (j : Job (system dep calls)) : Prop :=
  HasPut key j.history ∧ (j.running = true ∧ Uncommitted j.history ∨
    ∃ id, Inserted j id key ∧ seen.nextId ≤ id)

/-- Since a reconciliation has looked at the rows, no call has been between its put and its
commit of an object that the reconciliation deletes. -/
def Unraced : Guard (system dep calls) := fun cfg _ _ o =>
  ∀ key seen, Op.collect? o = some (StorageKey.render key, seen) →
    ∀ k ∈ cfg.jobs, ¬ Overlaps seen key k

/-- Every call in flight holds what it has put, and every active row that a finished or
unfinished call inserted has its object, which the call had put. -/
structure Kept (cfg : ServiceConfig dep) : Prop where
  held : ∀ j ∈ cfg.jobs, ∀ key, Pending key j → Held cfg.world key
  active : ∀ j ∈ cfg.jobs, j.call.stores = true → ∀ id key, Inserted j id key →
    ∀ row, cfg.world.db.artifacts.lookup id = some row → row.state = .active →
      cfg.world.objects.lookup key ≠ none
  put : ∀ j ∈ cfg.jobs, j.call.stores = true → ∀ id key, Inserted j id key → HasPut key j.history

section Law

variable {memberships : List Membership} {cfg cfg' : ServiceConfig dep}

/-- What is held stays held by every admitted operation. -/
theorem Held.step {j : Job (system dep (services dep))} {β : Type} {o : Op β} {b : β} {w' : World}
    {key : StorageKey} (h : Held cfg.world key) (hi : cfg.world.Inv dep)
    (howes : o.Owes dep cfg.world) (hunraced : Unraced cfg j β o)
    (hret : Returns (o.exec dep) cfg.world b w')
    (hpending : ∃ j ∈ cfg.jobs, Pending key j) : Held w' key := by
  have hl : cfg.world.Later w' := (Op.keeps hi howes hret).2
  obtain hstored | htaken := h
  · obtain hkept | ⟨id, read, cutoff, hpurge, rfl⟩ | ⟨seen, hcollect⟩ := Op.objects_kept hret hstored
    · exact .inl hkept
    · exact .inr (Taken.later ⟨id, read, (howes.purgeRead hpurge).row, rfl⟩ hl)
    · obtain ⟨k, hk, hrunning, hput, huncommitted⟩ := hpending
      exact absurd ⟨hput, .inl ⟨hrunning, huncommitted⟩⟩ (hunraced key seen hcollect k hk)
  · exact .inr (htaken.later hl)

/-- A purge deletes the object of no active row. -/
theorem PurgeRead.not_active {w : World} (hi : w.Inv dep) {id : Uuid} {read : Artifact}
    {cutoff : Instant} (h : PurgeRead w id read cutoff) {rowId : Uuid} {row : Artifact}
    (hrow : w.db.artifacts.lookup rowId = some row) (hkey : row.storageKey = read.storageKey) :
    row.state ≠ .active := by
  obtain rfl := h.row_of_key hi hrow hkey
  refine (h.row.later row hrow).retired ?_
  rw [h.tombstoned]
  nofun

/-- A row with the key of an object that is deleted has come since the rows were seen. -/
theorem CollectRead.unseen {w : World} {key : String} {seen : Db} (h : CollectRead w key seen)
    {id : Uuid} {row : Artifact} (hrow : w.db.artifacts.lookup id = some row)
    (hkey : row.storageKey.render = key) : seen.nextId ≤ id := by
  by_contra hearlier
  obtain ⟨old, hold, hlater⟩ := h.later.artifacts id row hrow (not_le.mp hearlier)
  refine h.unreferenced hold ?_
  rw [← hlater.same.storageKey]
  exact hkey

/-- The object of an active row that a call has put and inserted stays. -/
theorem active_kept {j : Job (system dep (services dep))} {β : Type} {o : Op β} {b : β} {w' : World}
    (hi : cfg.world.Inv dep) (howes : o.Owes dep cfg.world) (hunraced : Unraced cfg j β o)
    (hret : Returns (o.exec dep) cfg.world b w') {id : Uuid} {row : Artifact}
    (hrow : cfg.world.db.artifacts.lookup id = some row) (hactive : row.state = .active)
    {k : Job (system dep (services dep))} (hk : k ∈ cfg.jobs) (hput : HasPut row.storageKey k.history)
    (hinserted : Inserted k id row.storageKey)
    (hstored : cfg.world.objects.lookup row.storageKey ≠ none) :
    w'.objects.lookup row.storageKey ≠ none := by
  obtain hkept | ⟨readId, read, cutoff, hpurge, hkey⟩ | ⟨seen, hcollect⟩ :=
    Op.objects_kept hret hstored
  · exact hkept
  · exact absurd hactive ((howes.purgeRead hpurge).not_active hi hrow hkey.symm)
  · have hread : CollectRead cfg.world row.storageKey.render seen := howes.collectRead hcollect
    -- the look at the rows has missed this one, so it has been committed since
    exact absurd ⟨hput, .inr ⟨id, hinserted, hread.unseen hrow rfl⟩⟩
      (hunraced row.storageKey seen hcollect k hk)

/-- A row that was inserted has the key it was inserted with. -/
theorem Inserted.key {j : Job (system dep (services dep))} {id : Uuid} {key : StorageKey}
    (h : Inserted j id key)
    (hpast : ∀ e ∈ j.history, e.after.Inv dep ∧ e.after.Later cfg.world) {row : Artifact}
    (hrow : cfg.world.db.artifacts.lookup id = some row) : row.storageKey = key := by
  obtain ⟨e, he, inserted, ⟨-, hinserted⟩, rfl⟩ := h
  obtain ⟨hi, hl⟩ := hpast e he
  obtain ⟨old, hold, hlater⟩ := hl.db.artifacts id row hrow (hi.db.stored.fresh _ _ hinserted)
  rw [hinserted] at hold
  cases hold
  exact hlater.same.storageKey

/-- The row that was there before the operation, of a row that was there earlier. -/
theorem earlier_row {w w' : World} (hl : w.Later w') {id : Uuid} (hid : id < w.db.nextId)
    {row : Artifact} (hrow : w'.db.artifacts.lookup id = some row) (hactive : row.state = .active) :
    ∃ old, w.db.artifacts.lookup id = some old ∧ old.state = .active ∧
      old.storageKey = row.storageKey := by
  obtain ⟨old, hold, hlater⟩ := hl.db.artifacts id row hrow hid
  refine ⟨old, hold, ?_, hlater.same.storageKey.symm⟩
  by_contra hne
  exact hlater.retired hne hactive

/-- Only transactions insert rows. -/
theorem objects_inserts {w w' : World} {β : Type} {o : Op β} {b : β}
    (hret : Returns (o.exec dep) w b w') {id : Uuid} {row : Artifact} (hinserts : Inserts w w' id row) :
    w'.objects = w.objects := by
  cases o with
  | query q =>
    obtain ⟨-, rfl⟩ := query_returns hret
    rfl
  | write action =>
    obtain ⟨db, -, rfl⟩ := transact_returns hret
    rfl
  | request r =>
    have hret : Returns r.body w b w' := hret
    have hdb := r.db_eq hret
    have hself : Inserts w w id row := ⟨hinserts.1, hdb ▸ hinserts.2⟩
    exact absurd hself not_inserts_self

/-- One step of a run in which nobody collects what is still needed. -/
theorem Kept.act {i : Nat} {j : Job (system dep (services dep))} {β : Type} {o : Op β}
    {next : Except Error β → Service (j.call.Value)} (hk : Kept cfg) (hi : cfg.world.Inv dep)
    (hpast : ∀ j ∈ cfg.jobs, ∀ e ∈ j.history, e.after.Inv dep ∧ e.after.Later cfg.world)
    (hjob : cfg.jobs[i]? = some j) (hrest : j.rest = some (.op o next))
    (howes : o.Owes dep cfg.world) (hunraced : Unraced cfg j β o)
    (hstoring : j.call.stores = true →
      (storing dep (services dep)).must j.history β o cfg.world) :
    Kept ⟨(commit (o.exec dep) cfg.world).2, cfg.jobs.set i (j.advance o next cfg.world)⟩ := by
  have hmem : j ∈ cfg.jobs := List.mem_of_getElem? hjob
  have hrunning : j.running = true := by
    unfold Job.running
    rw [hrest]
  -- what the call had put and not committed before it performed `o`
  have hbefore : ∀ {key} {w' : World}, Uncommitted ((⟨o, cfg.world, w'⟩ : Event (system dep (services dep))) ::
      j.history) → HasPut key j.history → Pending key j :=
    fun hun hput => ⟨hrunning, hput, hun.tail⟩
  cases hc : commit (o.exec dep) cfg.world with
  | mk r w' =>
    cases r with
    | error e =>
      obtain ⟨rfl, -⟩ := commit_error hc
      have hadvance : (j.advance o next cfg.world).history = ⟨o, cfg.world, cfg.world⟩ :: j.history :=
        congrArg (fun x => (⟨o, cfg.world, x⟩ : Event (system dep (services dep))) :: j.history)
          (congrArg Prod.snd hc)
      refine ⟨fun k hk' key hpending => ?_, fun k hk' hstores id key hins row hrow hactive => ?_,
        fun k hk' hstores id key hins => ?_⟩
      · obtain hold | rfl := List.mem_or_eq_of_mem_set hk'
        · exact hk.held k hold key hpending
        · obtain ⟨-, ⟨e', he', hput, hstored⟩, hun⟩ := hpending
          rw [hadvance] at he' hun
          obtain rfl | hold := List.mem_cons.mp he'
          · exact .inl hstored
          · exact hk.held j hmem key (hbefore hun ⟨e', hold, hput, hstored⟩)
      · obtain hold | rfl := List.mem_or_eq_of_mem_set hk'
        · exact hk.active k hold hstores id key hins row hrow hactive
        · obtain ⟨e', he', inserted, hinserts, hkey⟩ := hins
          rw [hadvance] at he'
          obtain rfl | hold := List.mem_cons.mp he'
          · exact absurd hinserts not_inserts_self
          · exact hk.active j hmem hstores id key ⟨e', hold, inserted, hinserts, hkey⟩ row hrow hactive
      · obtain hold | rfl := List.mem_or_eq_of_mem_set hk'
        · exact hk.put k hold hstores id key hins
        · obtain ⟨e', he', inserted, hinserts, hkey⟩ := hins
          rw [hadvance] at he' ⊢
          obtain rfl | hold := List.mem_cons.mp he'
          · exact absurd hinserts not_inserts_self
          · exact (hk.put j hmem hstores id key ⟨e', hold, inserted, hinserts, hkey⟩).grow
              (List.suffix_cons _ _)
    | ok b =>
      have hret : Returns (o.exec dep) cfg.world b w' := commit_ok hc
      obtain ⟨hi', hl⟩ := Op.keeps hi howes hret
      have hadvance : (j.advance o next cfg.world).history = ⟨o, cfg.world, w'⟩ :: j.history :=
        congrArg (fun x => (⟨o, cfg.world, x⟩ : Event (system dep (services dep))) :: j.history)
          (congrArg Prod.snd hc)
      -- the object of a row inserted before this step
      have hearlier : ∀ k ∈ cfg.jobs, k.call.stores = true → ∀ id key, Inserted k id key →
          ∀ row, w'.db.artifacts.lookup id = some row → row.state = .active →
            w'.objects.lookup key ≠ none := by
        intro k hk' hstores id key hins row hrow hactive
        have hid : id < cfg.world.db.nextId := by
          obtain ⟨e', he', inserted, hinserts, -⟩ := hins
          obtain ⟨hie, hle⟩ := hpast k hk' e' he'
          exact Nat.lt_of_lt_of_le (hie.db.stored.fresh _ _ hinserts.2) hle.db.next
        obtain ⟨old, hold, holdActive, -⟩ := earlier_row hl hid hrow hactive
        have hkey := hins.key (hpast k hk') hold
        have hstored := hk.active k hk' hstores id key hins old hold holdActive
        have hput := hk.put k hk' hstores id key hins
        subst hkey
        exact active_kept hi howes hunraced hret hold holdActive hk' hput hins hstored
      refine ⟨fun k hk' key hpending => ?_, fun k hk' hstores id key hins row hrow hactive => ?_,
        fun k hk' hstores id key hins => ?_⟩
      · obtain hold | rfl := List.mem_or_eq_of_mem_set hk'
        · exact (hk.held k hold key hpending).step hi howes hunraced hret ⟨k, hold, hpending⟩
        · obtain ⟨-, ⟨e', he', hput, hstored⟩, hun⟩ := hpending
          rw [hadvance] at he' hun
          obtain rfl | hold := List.mem_cons.mp he'
          · exact .inl hstored
          · have hp := hbefore hun ⟨e', hold, hput, hstored⟩
            exact (hk.held j hmem key hp).step hi howes hunraced hret ⟨j, hmem, hp⟩
      · obtain hold | rfl := List.mem_or_eq_of_mem_set hk'
        · exact hearlier k hold hstores id key hins row hrow hactive
        · obtain ⟨e', he', inserted, hinserts, rfl⟩ := hins
          rw [hadvance] at he'
          obtain rfl | hold := List.mem_cons.mp he'
          · -- the row is inserted by this step: the call has put its object and held it
            obtain ⟨hput, hun⟩ := hstoring hstores hret hinserts
            obtain hstored | htaken := hk.held j hmem _ ⟨hrunning, hput, hun⟩
            · rw [show w'.objects = cfg.world.objects from objects_inserts hret hinserts]
              exact hstored
            · exact absurd rfl (htaken.not_inserts hi' hl hinserts)
          · exact hearlier j hmem hstores id _ ⟨e', hold, inserted, hinserts, rfl⟩ row hrow hactive
      · obtain hold | rfl := List.mem_or_eq_of_mem_set hk'
        · exact hk.put k hold hstores id key hins
        · obtain ⟨e', he', inserted, hinserts, rfl⟩ := hins
          rw [hadvance] at he' ⊢
          obtain rfl | hold := List.mem_cons.mp he'
          · exact (hstoring hstores hret hinserts).1.grow (List.suffix_cons _ _)
          · exact (hk.put j hmem hstores id _ ⟨e', hold, inserted, hinserts, rfl⟩).grow
              (List.suffix_cons _ _)

theorem Kept.start (hk : Kept cfg) (c : ServiceCall) :
    Kept (⟨cfg.world, cfg.jobs ++ [Job.start c]⟩ : ServiceConfig dep) := by
  refine ⟨fun j hj key hpending => ?_, fun j hj hstores id key hins => ?_,
    fun j hj hstores id key hins => ?_⟩
  · obtain hold | hnew := List.mem_append.mp hj
    · exact hk.held j hold key hpending
    · obtain rfl := List.mem_singleton.mp hnew
      obtain ⟨-, ⟨e, he, -⟩, -⟩ := hpending
      cases he
  · obtain hold | hnew := List.mem_append.mp hj
    · exact hk.active j hold hstores id key hins
    · obtain rfl := List.mem_singleton.mp hnew
      obtain ⟨e, he, -⟩ := hins
      cases he
  · obtain hold | hnew := List.mem_append.mp hj
    · exact hk.put j hold hstores id key hins
    · obtain rfl := List.mem_singleton.mp hnew
      obtain ⟨e, he, -⟩ := hins
      cases he

theorem Kept.crash {i : Nat} {j : Job (system dep (services dep))} (hk : Kept cfg)
    (hjob : cfg.jobs[i]? = some j) :
    Kept (⟨cfg.world, cfg.jobs.set i j.crash⟩ : ServiceConfig dep) := by
  refine ⟨fun k hk' key hpending => ?_, fun k hk' hstores id key hins => ?_,
    fun k hk' hstores id key hins => ?_⟩
  · obtain hold | rfl := List.mem_or_eq_of_mem_set hk'
    · exact hk.held k hold key hpending
    · cases hpending.1
  · obtain hold | rfl := List.mem_or_eq_of_mem_set hk'
    · exact hk.active k hold hstores id key hins
    · exact hk.active j (List.mem_of_getElem? hjob) hstores id key hins
  · obtain hold | rfl := List.mem_or_eq_of_mem_set hk'
    · exact hk.put k hold hstores id key hins
    · exact hk.put j (List.mem_of_getElem? hjob) hstores id key hins

theorem Kept.tick (hk : Kept cfg) (hi : cfg.world.Inv dep) (t : Tick) :
    Kept (⟨t.apply cfg.world, cfg.jobs⟩ : ServiceConfig dep) := by
  have hl := (t.keeps hi).2
  have hobjects : (t.apply cfg.world).objects = cfg.world.objects := by cases t <;> rfl
  have hdb : (t.apply cfg.world).db = cfg.world.db := by cases t <;> rfl
  refine ⟨fun j hj key hpending => ?_, fun j hj hstores id key hins row hrow hactive => ?_, hk.put⟩
  · obtain hstored | htaken := hk.held j hj key hpending
    · exact .inl (by rw [hobjects]; exact hstored)
    · exact .inr (htaken.later hl)
  · rw [show (t.apply cfg.world).db.artifacts = cfg.world.db.artifacts by rw [hdb]] at hrow
    rw [hobjects]
    exact hk.active j hj hstores id key hins row hrow hactive

theorem kept_reachable (h : Reachable Unraced (World.initial memberships) cfg) : Kept cfg := by
  have hlawful := lawful_reachable h
  have hrespects : Respects ((base dep (services dep)).lawful Unraced) (World.Inv dep) :=
    ⟨fun hi hG hret => (Op.keeps hi hG.2.2 hret).1, fun hi => (Tick.keeps _ hi).1⟩
  have hevolves : Evolves ((base dep (services dep)).lawful Unraced) (World.Inv dep) World.Later :=
    ⟨World.Later.refl, World.Later.trans, fun hi hG hret => (Op.keeps hi hG.2.2 hret).2,
      fun hi => (Tick.keeps _ hi).2⟩
  clear h
  unfold Reachable at hlawful
  induction hlawful with
  | refl =>
    exact ⟨fun j hj => (List.not_mem_nil hj).elim, fun j hj => (List.not_mem_nil hj).elim,
      fun j hj => (List.not_mem_nil hj).elim⟩
  | @tail cfg cfg' hs hstep ih =>
    have hreach : Reachable ((base dep (services dep)).lawful Unraced) (World.initial memberships) cfg := hs
    have hi := reachable_inv hreach
    cases hstep with
    | start c => exact ih.start c
    | tick t => exact ih.tick hi t
    | crash hjob => exact ih.crash hjob
    | @act i j β o next hjob hrest hG =>
      refine ih.act hi (fun k hk e he => ?_) hjob hrest hG.2.2 hG.1 fun hstores => ?_
      · obtain ⟨hbefore, howes, hafter⟩ := events_owed hreach k hk e he
        refine ⟨?_, past_later hreach k hk e he⟩
        exact hafter ▸ (@Contract.commit _ (base dep (services dep)) [] _ e.op _ hbefore trivial howes).1
      · have hsat := (storing dep (services dep)).sound_among (fun c => c.stores = true)
          (fun _ _ _ _ => True) (fun _ _ _ _ => True) hrespects hevolves (fun _ hG => hG.2.2)
          (fun c w hc hi => c.storing_sat hc hi) hreach (World.inv_initial dep memberships)
          j (List.mem_of_getElem? hjob) hstores _ hrest
        exact @(hsat cfg.world (World.Later.refl _) hi hG.2.2).1

/-- In every run in which, whenever a reconciliation deletes an object, no call has been between
its put and its commit of it since the reconciliation looked at the rows: an artifact that a
create, an adoption or a finalize inserted has its object as long as it is active. -/
theorem active_objects_kept (h : Reachable Unraced (World.initial memberships) cfg)
    {j : Job (system dep (services dep))} (hj : j ∈ cfg.jobs) (hcall : j.call.stores = true)
    {id : Uuid} {key : StorageKey} (hinserted : Inserted j id key) {row : Artifact}
    (hrow : cfg.world.db.artifacts.lookup id = some row) (hactive : row.state = .active) :
    row.storageKey = key ∧ cfg.world.objects.lookup key ≠ none := by
  refine ⟨hinserted.key (fun e he => ?_) hrow,
    (kept_reachable h).active j hj hcall id key hinserted row hrow hactive⟩
  obtain ⟨hbefore, howes, hafter⟩ := events_owed h j hj e he
  refine ⟨?_, past_later h j hj e he⟩
  exact hafter ▸ (@Contract.commit _ (base dep (services dep)) [] _ e.op _ hbefore trivial howes).1

end Law

/-- Call 2 puts the text and dies. -/
def orphanedUpload : List (Move Small) :=
  smallProject ++ smallUpload :: acts Small 2 3 ++ [.crash 2, .tick (.pass (seconds (2 * 60 * 60)))]

/-- Call 3, a reconciliation, has found the object without a row and old enough; call 4
uploads the same text; then the reconciliation goes on. -/
def overtakenCollection : List (Move Small) :=
  orphanedUpload ++ .start (ServiceCall.reconcileOrphans none 10) :: acts Small 3 4 ++
    smallUpload :: acts Small 4 7 ++ acts Small 3 1

/-- Where an object is deleted, no artifact was ever inserted and no call that has put an object
is running. -/
def quietCollection : Config Small → (β : Type) → Small.Op β → Bool := fun cfg _ o =>
  (Op.collect? o).isNone || cfg.jobs.all fun k =>
    k.history.all (fun e => e.after.db.artifacts.rows.isEmpty) &&
      (!k.running || k.history.all fun e => (Op.put? e.op).isNone)

theorem quietCollection_unraced {cfg : Config Small} {j : Job Small} {β : Type} {o : Small.Op β}
    (h : quietCollection cfg β o = true) : Unraced cfg j β o := by
  rintro key seen hcollect k hk ⟨⟨put, hput, hkey, -⟩, hwindow⟩
  unfold quietCollection at h
  rw [hcollect, Option.isNone_some, Bool.false_or] at h
  obtain ⟨hempty, hidle⟩ := Bool.and_eq_true_iff.mp (List.all_eq_true.mp h k hk)
  obtain ⟨hrunning, -⟩ | ⟨id, ⟨e, he, row, ⟨-, hrow⟩, -⟩, -⟩ := hwindow
  · rw [hrunning, Bool.not_true, Bool.false_or] at hidle
    have hnone := List.all_eq_true.mp hidle put hput
    rw [hkey] at hnone
    cases hnone
  · have hrows := List.isEmpty_iff.mp (List.all_eq_true.mp hempty e he)
    have hmem := Table.mem_rows.mpr hrow
    rw [hrows] at hmem
    cases hmem

/-- Call 3, a reconciliation, deletes the object that call 2 has left; call 4 uploads the text. -/
def collectedUpload : List (Move Small) :=
  orphanedUpload ++ .start (ServiceCall.reconcileOrphans none 10) :: acts Small 3 5 ++
    smallUpload :: acts Small 4 7

/-- What the latest operation of job `i` did to artifact 1, and what became of it. -/
def smallInserted (i : Nat) (cfg : Config Small) :
    Option (Bool × Option StorageKey × Option StorageKey × Option ArtifactState) :=
  (cfg.jobs[i]?).bind fun j => j.history.head?.map fun e =>
    (j.call.stores && (j.rest.bind Prog.returned?).isSome,
      (e.before.db.artifacts.lookup 1).map (·.storageKey),
      (e.after.db.artifacts.lookup 1).map (·.storageKey),
      (cfg.world.db.artifacts.lookup 1).map (·.state))

theorem smallInserted_spec {i : Nat} {cfg : Config Small}
    (h : smallInserted i cfg = some (true, none, some smallKey, some .active)) :
    ∃ j ∈ cfg.jobs, j.call.stores = true ∧ (∃ a, j.Returned a) ∧ Inserted j 1 smallKey ∧
      ∃ row, cfg.world.db.artifacts.lookup 1 = some row ∧ row.state = .active := by
  obtain ⟨j, hj, h⟩ := Option.bind_eq_some_iff.mp h
  obtain ⟨e, he, h⟩ := Option.map_eq_some_iff.mp h
  simp only [Prod.mk.injEq, Bool.and_eq_true, Option.map_eq_none_iff, Option.map_eq_some_iff] at h
  obtain ⟨⟨hcall, hreturned⟩, hbefore, ⟨inserted, hinserted, hkey⟩, hrow⟩ := h
  obtain ⟨a, hreturned⟩ := Option.isSome_iff_exists.mp hreturned
  obtain ⟨p, hrest, hp⟩ := Option.bind_eq_some_iff.mp hreturned
  refine ⟨j, List.mem_of_getElem? hj, hcall, ⟨a, hrest.trans (congrArg some (Prog.eq_ret hp))⟩,
    ⟨e, List.mem_of_head? he, inserted, ⟨hbefore, hinserted⟩, hkey⟩, hrow⟩

/-- Artifact 1 is that of call 4, and its object is not the one of call 2. -/
def storesAgain (cfg : Config Small) : Bool :=
  decide (smallInserted 4 cfg = some (true, none, some smallKey, some .active)) &&
    decide ((cfg.world.objects.lookup smallKey).map (·.modifiedAt) = some (seconds (2 * 60 * 60)))

def storedAgain : Sampled (runIf quietCollection smallStart collectedUpload) storesAgain :=
  .of (by decide +kernel)

theorem active_objects_kept_uploaded :
    ∃ cfg row, runIf quietCollection smallStart collectedUpload = some cfg ∧
      (cfg.world.objects.lookup smallKey).map (·.modifiedAt) = some (seconds (2 * 60 * 60)) ∧
      cfg.world.db.artifacts.lookup 1 = some row ∧ row.storageKey = smallKey ∧
      cfg.world.objects.lookup smallKey ≠ none := by
  obtain ⟨cfg, hcfg, hchecked⟩ : ∃ cfg, runIf quietCollection smallStart collectedUpload = some cfg ∧
      storesAgain cfg = true := ⟨_, storedAgain.run, storedAgain.checked⟩
  obtain ⟨hinserted, hagain⟩ := Bool.and_eq_true_iff.mp hchecked
  obtain ⟨j, hj, hcall, -, hinserted, row, hrow, hactive⟩ :=
    smallInserted_spec (of_decide_eq_true hinserted)
  have hreach : Reachable (M := Small) Unraced (World.initial smallMembers) cfg :=
    @runIf_steps Small Unraced quietCollection (fun _ h => quietCollection_unraced h) _ _ _ hcfg
  have hkept := active_objects_kept hreach hj hcall hinserted hrow hactive
  exact ⟨cfg, row, hcfg, of_decide_eq_true hagain, hrow, hkept⟩

/-- The artifact of call 4 is active and has no object. -/
theorem active_objects_overtaken :
    ¬ ∀ cfg : Config Small, Reachable (M := Small) free (World.initial smallMembers) cfg →
      ∀ j ∈ cfg.jobs, j.call.stores = true → (∃ a, j.Returned a) → ∀ id key, Inserted j id key →
        ∀ row, cfg.world.db.artifacts.lookup id = some row → row.state = .active →
          cfg.world.objects.lookup key ≠ none := by
  intro hclaim
  have hrun : (smallRun overtakenCollection).map (fun cfg =>
      (decide (smallInserted 4 cfg = some (true, none, some smallKey, some .active)),
        (cfg.world.objects.lookup smallKey).isNone)) = some (true, true) := by
    decide +kernel
  obtain ⟨cfg, hcfg, hrun⟩ := Option.map_eq_some_iff.mp hrun
  obtain ⟨hrun, hnone⟩ := Prod.mk.inj hrun
  have hrun := of_decide_eq_true hrun
  obtain ⟨j, hj, hcall, hreturned, hinserted, row, hrow, hactive⟩ := smallInserted_spec hrun
  exact hclaim cfg (smallRun_reachable hcfg) j hj hcall hreturned 1 smallKey hinserted row hrow
    hactive (Option.isNone_iff_eq_none.mp hnone)

end CorpusKit
