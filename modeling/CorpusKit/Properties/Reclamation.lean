import CorpusKit.Properties.StoredObjects
import CorpusKit.Properties.Maintenance
import CorpusKit.Properties.ReplayOutputs
import CorpusKit.Maintenance.Sweep
import CorpusKit.Library.Solo

/-! # Purged bytes stay gone

A purge deletes the object of a tombstoned row and then marks the row as deleted. A
create that saw no duplicate may put the object again later and lose its insert; the
reconciler then finds the key under the deleted row and leaves the object where it is. As
long as no put comes back to a deleted row, and no purge marks a row whose object is there
again, a sweep by itself leaves no object without a row that is not deleted. -/

namespace CorpusKit

open Transaction Program Interleaving

variable {dep : Deployment} {calls : Calls}

/-! ## The names of keys -/

/-- The identifiers of the key are UUIDs: they have 128 bits. -/
def StorageKey.Uuids : StorageKey → Prop
  | .artifact organizationId projectId runId _ _ =>
    organizationId < 2 ^ 128 ∧ projectId < 2 ^ 128 ∧ ∀ run ∈ runId, run < 2 ^ 128
  | .staged _ => True

theorem uuidHex_injective {a b : Uuid} (ha : a < 2 ^ 128) (hb : b < 2 ^ 128)
    (h : uuidHex a = uuidHex b) : a = b := by
  have hmod := hexDigits_mod h
  have hpow : 16 ^ 32 = 2 ^ 128 := by norm_num
  rwa [hpow, Nat.mod_eq_of_lt ha, Nat.mod_eq_of_lt hb] at hmod

theorem scopeChars_injective {a b : Option Uuid} (ha : ∀ run ∈ a, run < 2 ^ 128)
    (hb : ∀ run ∈ b, run < 2 ^ 128) (h : scopeChars a = scopeChars b) : a = b := by
  have hproject : ∀ run : Uuid, scopeChars (some run) ≠ scopeChars none := by
    intro run heq
    have hlength := congrArg List.length heq
    rw [show (scopeChars (some run)).length = 32 from hexDigits_length 32 run] at hlength
    revert hlength
    decide
  cases a with
  | none =>
    cases b with
    | none => rfl
    | some run => exact absurd h.symm (hproject run)
  | some run =>
    cases b with
    | none => exact absurd h (hproject run)
    | some run' => exact congrArg some (uuidHex_injective (ha run rfl) (hb run' rfl) h)

theorem segment_whole (key : StorageKey) : ∀ s ∈ key.segments, '/' ∉ s := by
  cases key with
  | artifact organizationId projectId runId kind sha256 =>
    exact fun s hs => (ObjectStore.segment_storageKey rfl s hs).whole
  | staged sha256 =>
    have hhex : ObjectStore.Segment (sha256Hex sha256) := ObjectStore.segment_hex (by decide)
    intro s hs
    simp only [StorageKey.segments, List.mem_cons, List.not_mem_nil, or_false] at hs
    rcases hs with h | h | h | h | h
    · exact h ▸ by simp
    · exact h ▸ ObjectStore.segment_v1.whole
    · exact h ▸ by simp
    · exact h ▸ (ObjectStore.segment_take hhex (by decide)).whole
    · exact h ▸ hhex.whole

/-- Different keys have different names. -/
theorem StorageKey.render_injective {k k' : StorageKey} (hk : k.Uuids) (hk' : k'.Uuids)
    (h : k.render = k'.render) : k = k' := by
  have hsegments : k.segments = k'.segments := by
    have hne : ∀ key : StorageKey, key.segments ≠ [] := fun key => by cases key <;> nofun
    rw [← Maintenance.splitOn_render (segment_whole k) (hne k), h,
      Maintenance.splitOn_render (segment_whole k') (hne k')]
  cases k with
  | artifact organizationId projectId runId kind sha256 =>
    cases k' with
    | staged sha256' =>
      exact absurd (List.cons.inj hsegments).1 (by decide)
    | artifact organizationId' projectId' runId' kind' sha256' =>
      simp only [segments, List.cons.injEq, true_and, and_true] at hsegments
      obtain ⟨horg, hproject, hrun, hkind, -, hsha⟩ := hsegments
      rw [uuidHex_injective hk.1 hk'.1 horg, uuidHex_injective hk.2.1 hk'.2.1 hproject,
        scopeChars_injective hk.2.2 hk'.2.2 hrun, RunManifestService.kindValue_injective hkind,
        Manifests.sha256Hex_injective hsha]
  | staged sha256 =>
    cases k' with
    | artifact organizationId' projectId' runId' kind' sha256' =>
      exact absurd (List.cons.inj hsegments).1 (by decide)
    | staged sha256' =>
      simp only [segments, List.cons.injEq, true_and, and_true] at hsegments
      rw [Manifests.sha256Hex_injective hsegments.2]

theorem isArtifact_of_startsWith {key : StorageKey}
    (h : ObjectStore.startsWith key.render ObjectStore.artifactNamespace = true) :
    key.isArtifact = true := by
  cases key with
  | artifact => rfl
  | staged sha256 =>
    rw [ObjectStore.startsWith, ObjectStore.render_toList, List.isPrefixOf_iff_prefix] at h
    obtain ⟨rest, hrest⟩ := h
    cases hrest

/-! ## Which transactions delete a row -/

/-- The row was deleted before: a transaction left it so. -/
def WasDeleted (db : Db) (id : Uuid) (row : Artifact) : Prop :=
  ∃ old, db.artifacts.lookup id = some old ∧ old.state = .deleted ∧ old.storageKey = row.storageKey

/-- The artifact whose row a purge marks. -/
def Action.discards? {β : Type} : Action β → Option Uuid
  | .markPurged id .. => some id
  | _ => none

def Op.discards? {β : Type} : Op β → Option Uuid
  | .write action => action.discards?
  | _ => none

section Deleted

variable {db db' : Db} {id : Uuid} {row : Artifact}

theorem WasDeleted.self (hrow : db.artifacts.lookup id = some row) (hdead : row.state = .deleted) :
    WasDeleted db id row := ⟨row, hrow, hdead, rfl⟩

/-- Only a transaction that retires artifacts marks a row as deleted. -/
theorem Change.was_deleted {permit : Permit} (hc : Change permit db db')
    (hpermit : permit.retires = false) (hrow : db'.artifacts.lookup id = some row)
    (hdead : row.state = .deleted) : WasDeleted db id row := by
  have hinserted : ∀ {new : Uuid} {artifact : Artifact}, artifact.state = .active →
      (db.artifacts.insert new artifact).lookup id = some row → WasDeleted db id row := by
    intro new artifact hactive hlookup
    obtain ⟨-, rfl⟩ | ⟨-, hold⟩ := Table.lookup_insert_cases hlookup
    · rw [hactive] at hdead
      cases hdead
    · exact .self hold hdead
  cases hc with
  | adopt time mediaType schemaId hrun hstate hask hfree horg hevent hres hown hactive hkept hsize
      hplace hkeyed hscope hkey hpolicy => exact hinserted hkept hrow
  | store artifact hproject hkind hactive hsize hkeyed hscope hkey hpolicy =>
    exact hinserted hactive hrow
  | tombstone hretires => rw [hpermit] at hretires; cases hretires
  | discard hretires => rw [hpermit] at hretires; cases hretires
  | schedule hretires => rw [hpermit] at hretires; cases hretires
  | erase hp hproject horg hdead' hready husages =>
    exact .self (Table.lookup_deleteWhere.mp hrow).1 hdead
  | _ => exact .self hrow hdead

theorem Changes.was_deleted {permit : Permit} (hc : Changes permit db db')
    (hpermit : permit.retires = false) (hrow : db'.artifacts.lookup id = some row)
    (hdead : row.state = .deleted) : WasDeleted db id row := by
  induction hc generalizing row with
  | refl => exact .self hrow hdead
  | tail _ hstep ih =>
    obtain ⟨mid, hmid, hgone, hkey⟩ := hstep.was_deleted hpermit hrow hdead
    obtain ⟨old, hold, hdeleted, hsame⟩ := ih hmid hgone
    exact ⟨old, hold, hdeleted, hsame.trans hkey⟩

theorem ArtifactService.tombstone_was_deleted {who : ArtifactActor} {projectId artifactId : Uuid}
    {now : Instant} {u : Unit} (h : Returns (tombstone who projectId artifactId now) db u db')
    (hrow : db'.artifacts.lookup id = some row) (hdead : row.state = .deleted) :
    WasDeleted db id row := by
  unfold tombstone at h
  obtain ⟨user, s, hscope, h⟩ := h.bind
  obtain ⟨-, rfl⟩ := authorizeScope_returns hscope
  obtain ⟨a, s, hget, h⟩ := h.bind
  obtain ⟨rfl, rfl⟩ := hget.get
  obtain ⟨artifact, s, hfound, h⟩ := h.bind
  obtain ⟨-, rfl⟩ := hfound.found
  obtain ⟨u, s, hset, h⟩ := h.bind
  obtain rfl := hset.set
  obtain ⟨head, -, -, rfl⟩ := append_returns h
  obtain ⟨-, rfl⟩ | ⟨-, hold⟩ := Table.lookup_insert_cases hrow
  · cases hdead
  · exact .self hold hdead

theorem ArtifactService.markPurged_was_deleted {marked : Uuid} {read : Artifact}
    {cutoff now : Instant} {b : Bool} (h : Returns (markPurged marked read cutoff now) db b db')
    (hrow : db'.artifacts.lookup id = some row) (hdead : row.state = .deleted) :
    WasDeleted db id row ∨ marked = id ∧ ∃ old, db.artifacts.lookup id = some old ∧
      old.state = .tombstoned ∧ old.storageKey = row.storageKey := by
  unfold markPurged at h
  obtain ⟨a, s, hget, h⟩ := h.bind
  obtain ⟨rfl, rfl⟩ := hget.get
  split at h
  · obtain ⟨-, rfl⟩ := h.pure
    exact .inl (.self hrow hdead)
  · next old hold =>
    rw [Option.filter_eq_some_iff, beq_iff_eq] at hold
    obtain ⟨u, s, hset, h⟩ := h.bind
    obtain rfl := hset.set
    obtain ⟨u, s, hrelease, h⟩ := h.bind
    obtain ⟨usage, -, rfl⟩ := QuotaManager.releaseArtifact_returns hrelease
    obtain ⟨u, s, haudit, h⟩ := h.bind
    obtain ⟨head, -, -, rfl⟩ := append_returns haudit
    obtain ⟨-, rfl⟩ := h.pure
    obtain ⟨rfl, rfl⟩ | ⟨-, hkept⟩ := Table.lookup_insert_cases hrow
    · exact .inr ⟨rfl, old, hold.1, hold.2, rfl⟩
    · exact .inl (.self hkept hdead)

theorem ProjectDeletion.scheduleArtifact_deleted {org projectId : Uuid}
    {requestedAt retentionUntil : Instant} {artifact : Artifact}
    (h : (scheduleArtifact org projectId requestedAt retentionUntil artifact).state = .deleted) :
    scheduleArtifact org projectId requestedAt retentionUntil artifact = artifact := by
  unfold scheduleArtifact at h ⊢
  split
  · next hlive =>
    rw [if_pos hlive] at h
    cases h
  · rfl

theorem ProjectDeletion.request_was_deleted {who : WorkspaceActor} {projectId : Uuid}
    {confirmation : String} {retention : Duration} {now : Instant} {u : Unit}
    (h : Returns (request who projectId confirmation retention now) db u db')
    (hrow : db'.artifacts.lookup id = some row) (hdead : row.state = .deleted) :
    WasDeleted db id row := by
  unfold request at h
  obtain ⟨⟨userId, role⟩, s, hactor, h⟩ := h.bind
  obtain rfl := ProjectWorkspace.actor_returns hactor
  obtain ⟨u, s, hreq, h⟩ := h.bind
  obtain ⟨-, rfl⟩ := hreq.require
  obtain ⟨u, s, hreq, h⟩ := h.bind
  obtain ⟨-, rfl⟩ := hreq.require
  obtain ⟨a, s, hget, h⟩ := h.bind
  obtain ⟨rfl, rfl⟩ := hget.get
  obtain ⟨project, s, hfound, h⟩ := h.bind
  obtain ⟨-, rfl⟩ := hfound.found
  obtain ⟨u, s, hreq, h⟩ := h.bind
  obtain ⟨-, rfl⟩ := hreq.require
  split at h
  · obtain ⟨-, rfl⟩ := h.pure
    exact .self hrow hdead
  · unfold schedule at h
    obtain ⟨a, s, hget, h⟩ := h.bind
    obtain ⟨rfl, rfl⟩ := hget.get
    obtain ⟨u, s, hreq, h⟩ := h.bind
    obtain ⟨-, rfl⟩ := hreq.require
    obtain ⟨u, s, hset, h⟩ := h.bind
    obtain rfl := hset.set
    obtain ⟨head, -, -, rfl⟩ := append_returns h
    obtain ⟨old, hold, rfl⟩ := Option.map_eq_some_iff.mp (Table.lookup_mapRows.symm.trans hrow)
    have hsame := scheduleArtifact_deleted hdead
    rw [hsame] at hdead ⊢
    exact .self hold hdead

/-- A row that is deleted now was deleted before, or it was tombstoned and a purge has
marked it. -/
theorem Action.was_deleted {β : Type} {b : β} {w : World} {action : Action β} (hi : w.Inv dep)
    (howes : action.Owes dep w) (h : Returns (action.body dep) w.db b db')
    (hrow : db'.artifacts.lookup id = some row) (hdead : row.state = .deleted) :
    WasDeleted w.db id row ∨ action.discards? = some id ∧ ∃ old,
      w.db.artifacts.lookup id = some old ∧ old.state = .tombstoned ∧
        old.storageKey = row.storageKey := by
  cases action with
  | tombstone who projectId artifactId now =>
    exact .inl (ArtifactService.tombstone_was_deleted h hrow hdead)
  | markPurged marked read cutoff now =>
    obtain hold | ⟨rfl, hold⟩ := ArtifactService.markPurged_was_deleted h hrow hdead
    · exact .inl hold
    · exact .inr ⟨rfl, hold⟩
  | requestDeletion who projectId confirmation retention now =>
    exact .inl (ProjectDeletion.request_was_deleted h hrow hdead)
  | _ => exact .inl ((Action.changes hi.db howes h).was_deleted rfl hrow hdead)

theorem Op.was_deleted {β : Type} {b : β} {w w' : World} {o : Op β} (hi : w.Inv dep)
    (howes : o.Owes dep w) (h : Returns (o.exec dep) w b w')
    (hrow : w'.db.artifacts.lookup id = some row) (hdead : row.state = .deleted) :
    WasDeleted w.db id row ∨ o.discards? = some id ∧ ∃ old,
      w.db.artifacts.lookup id = some old ∧ old.state = .tombstoned ∧
        old.storageKey = row.storageKey := by
  cases o with
  | query q =>
    obtain ⟨-, rfl⟩ := query_returns h
    exact .inl (.self hrow hdead)
  | write action =>
    obtain ⟨db, hbody, rfl⟩ := transact_returns h
    exact action.was_deleted hi howes hbody hrow hdead
  | request r =>
    have h : Returns r.body w b w' := h
    rw [r.db_eq h] at hrow
    exact .inl (.self hrow hdead)

end Deleted

/-! ## The law -/

/-- No row that is deleted has its object. -/
def Clean (w : World) : Prop :=
  ∀ id row, w.db.artifacts.lookup id = some row → row.state = .deleted →
    w.objects.lookup row.storageKey = none

/-- What puts an object back under a deleted row: a put under its key that reaches the
store, and a purge that marks the row while the object is there again. -/
def Unrevived : Guard (system dep calls) := fun cfg _ _ o =>
  (∀ key, Op.put? o = some key → cfg.world.available = true → ∀ id row,
    cfg.world.db.artifacts.lookup id = some row → row.state = .deleted → row.storageKey ≠ key) ∧
  ∀ id row, Op.discards? o = some id → cfg.world.db.artifacts.lookup id = some row →
    row.state = .tombstoned → cfg.world.objects.lookup row.storageKey = none

/-- A put that returned has reached the store. -/
theorem Op.put_reached {β : Type} {b : β} {w w' : World} {o : Op β} {key : StorageKey}
    (h : Returns (o.exec dep) w b w') (hput : o.put? = some key) : w.available = true := by
  cases o with
  | query q => cases hput
  | write action => cases hput
  | request r =>
    cases r with
    | put stored sha256 sizeBytes mediaType =>
      have h : Returns (putObject stored sha256 sizeBytes mediaType) w b w' := h
      obtain ⟨u, w₁, hreach, h⟩ := h.bind
      obtain ⟨x, w₂, hget, hreach⟩ := hreach.bind
      obtain ⟨rfl, rfl⟩ := hget.get
      exact hreach.require.1
    | _ => cases hput

/-- An operation that puts no object back keeps the store clean. -/
theorem Clean.op {β : Type} {o : Op β} {b : β} {w w' : World} (hc : Clean w) (hi : w.Inv dep)
    (howes : o.Owes dep w) (hput : ∀ key, o.put? = some key → ∀ id row,
      w.db.artifacts.lookup id = some row → row.state = .deleted → row.storageKey ≠ key)
    (hmark : ∀ id row, o.discards? = some id → w.db.artifacts.lookup id = some row →
      row.state = .tombstoned → w.objects.lookup row.storageKey = none)
    (hret : Returns (o.exec dep) w b w') : Clean w' := by
  intro id row hrow hdead
  have hrows := Op.was_deleted hi howes hret hrow hdead
  have habsent : w.objects.lookup row.storageKey = none := by
    obtain ⟨old, hold, hgone, hkey⟩ | ⟨hmarks, old, hold, hdue, hkey⟩ := hrows
    · exact hkey ▸ hc id old hold hgone
    · exact hkey ▸ hmark id old hmarks hold hdue
  by_contra hback
  obtain hthere | hputs := Op.objects_grow hret hback
  · exact hthere habsent
  · obtain ⟨old, hold, hgone, hkey⟩ | ⟨hmarks, -⟩ := hrows
    · exact hput _ hputs id old hold hgone hkey
    · cases o with
      | query q => cases hputs
      | write action => cases hputs
      | request r => cases hmarks

theorem clean_reachable {memberships : List Membership} {cfg : ServiceConfig dep}
    (h : Reachable Unrevived (World.initial memberships) cfg) : Clean cfg.world := by
  have hrespects : Respects ((base dep (services dep)).lawful Unrevived)
      fun w => w.Inv dep ∧ Clean w := by
    refine Respects.and ⟨fun hi hG hret => (Op.keeps hi hG.2.2 hret).1,
      fun hi => (Tick.keeps _ hi).1⟩ (fun hi hc hG hret => hc.op hi hG.2.2
        (fun key hput => hG.1.1 key hput (Op.put_reached hret hput)) hG.1.2 hret)
      fun {t w} hc => ?_
    cases t <;> exact hc
  refine (hrespects.reachable (lawful_reachable h) ⟨World.inv_initial dep memberships, ?_⟩).2
  exact fun id row hrow => (Table.not_mem_empty hrow).elim



/-! ## A purge alone -/

/-- What a program alone may leave that deletes objects and moves rows on. -/
structure Swept (dep : Deployment) (w w' : World) : Prop where
  inv : w'.Inv dep
  clean : Clean w'
  later : w.Later w'
  available : w'.available = w.available
  now : w'.now = w.now
  objects : ∀ {key object}, w'.objects.lookup key = some object → w.objects.lookup key = some object
  rows : ∀ {id row}, w'.db.artifacts.lookup id = some row →
    ∃ old, w.db.artifacts.lookup id = some old ∧ old.storageKey = row.storageKey

theorem Swept.refl {w : World} (hi : w.Inv dep) (hc : Clean w) : Swept dep w w where
  inv := hi
  clean := hc
  later := .refl w
  available := rfl
  now := rfl
  objects h := h
  rows h := ⟨_, h, rfl⟩

theorem Swept.trans {u v w : World} (h : Swept dep u v) (h' : Swept dep v w) : Swept dep u w where
  inv := h'.inv
  clean := h'.clean
  later := h.later.trans h'.later
  available := h'.available.trans h.available
  now := h'.now.trans h.now
  objects hobject := h.objects (h'.objects hobject)
  rows hrow := by
    obtain ⟨mid, hmid, hkey⟩ := h'.rows hrow
    obtain ⟨old, hold, hsame⟩ := h.rows hmid
    exact ⟨old, hold, hsame.trans hkey⟩

/-- Only ticks move the clock and the store's availability. -/
theorem Op.surroundings_eq {β : Type} {o : Op β} {b : β} {w w' : World}
    (h : Returns (o.exec dep) w b w') : w'.available = w.available ∧ w'.now = w.now := by
  cases o with
  | query q =>
    obtain ⟨-, rfl⟩ := query_returns h
    exact ⟨rfl, rfl⟩
  | write action =>
    obtain ⟨db, -, rfl⟩ := transact_returns h
    exact ⟨rfl, rfl⟩
  | request r =>
    have h : Returns r.body w b w' := h
    cases r with
    | put stored sha256 sizeBytes mediaType =>
      obtain ⟨rfl, -⟩ | ⟨-, rfl⟩ := putObject_returns h <;> exact ⟨rfl, rfl⟩
    | purgeObject id read cutoff =>
      rw [purgeObject_returns h]
      exact ⟨rfl, rfl⟩
    | collect gone seen =>
      rw [collect_returns h]
      exact ⟨rfl, rfl⟩
    | publish message =>
      rw [publish_returns h]
      exact ⟨rfl, rfl⟩

/-- What is stored after an operation that puts nothing was stored before. -/
theorem Op.objects_shrink {β : Type} {o : Op β} {b : β} {w w' : World}
    (h : Returns (o.exec dep) w b w') (hput : o.put? = none) {key : StorageKey}
    {object : StoredObject} (hobject : w'.objects.lookup key = some object) :
    w.objects.lookup key = some object := by
  cases o with
  | query q =>
    obtain ⟨-, rfl⟩ := query_returns h
    exact hobject
  | write action =>
    obtain ⟨db, -, rfl⟩ := transact_returns h
    exact hobject
  | request r =>
    have h : Returns r.body w b w' := h
    cases r with
    | put stored sha256 sizeBytes mediaType => cases hput
    | purgeObject id read cutoff =>
      rw [purgeObject_returns h] at hobject
      by_cases hsame : key = read.storageKey
      · rw [hsame, AList.lookup_erase] at hobject
        cases hobject
      · exact (AList.lookup_erase_ne hsame).symm.trans hobject
    | collect gone seen =>
      rw [collect_returns h] at hobject
      exact (Table.lookup_deleteWhere.mp hobject).1
    | publish message =>
      rw [publish_returns h] at hobject
      exact hobject

theorem Swept.op {β : Type} {o : Op β} {b : β} {w w' : World} (hi : w.Inv dep) (hc : Clean w)
    (howes : o.Owes dep w) (hquiet : Quiet dep β o) (hput : o.put? = none)
    (hmark : ∀ id row, o.discards? = some id → w.db.artifacts.lookup id = some row →
      row.state = .tombstoned → w.objects.lookup row.storageKey = none)
    (hret : Returns (o.exec dep) w b w') : Swept dep w w' := by
  obtain ⟨hi', hl⟩ := Op.keeps hi howes hret
  refine ⟨hi', hc.op hi howes (fun key hputs => ?_) hmark hret, hl,
    (Op.surroundings_eq hret).1, (Op.surroundings_eq hret).2, Op.objects_shrink hret hput,
    fun {id row} hrow => ?_⟩
  · rw [hput] at hputs
    cases hputs
  · cases hold : w.db.artifacts.lookup id with
    | none => exact absurd ⟨hold, hrow⟩ (hquiet.2 hi howes hret)
    | some old =>
      obtain ⟨known, hknown, hlater⟩ := hl.db.artifacts id row hrow (hi.db.stored.fresh _ _ hold)
      rw [hold] at hknown
      cases hknown
      exact ⟨old, rfl, hlater.same.storageKey.symm⟩

namespace ArtifactService

variable {w : World}

/-- One candidate: its object is gone when its row is marked. -/
theorem purgeOne_swept (hi : w.Inv dep) (hc : Clean w) {id : Uuid} {row : Artifact}
    {cutoff : Instant} (hread : PurgeRead w id row cutoff) :
    Swept dep w (alone (M := system dep calls) (purgeOne id row cutoff) w).2 := by
  refine alone_handle_leaves (M := system dep calls) ?_ fun e v hv => ?_
  · refine alone_op_leaves (M := system dep calls) (fun _ _ => .refl hi hc) fun u v hret => ?_
    have hret : Returns ((Op.request (.purgeObject id row cutoff)).exec dep) w u v := hret
    have howes : Op.Owes dep w (.request (.purgeObject id row cutoff)) := hread
    have hpurged : Swept dep w v :=
      .op hi hc howes (request_quiet _) rfl (fun _ _ h => nomatch h) hret
    have hgone : v.objects.lookup row.storageKey = none := by
      have hret : Returns (Request.purgeObject id row cutoff).body w u v := hret
      rw [purgeObject_returns hret]
      exact AList.lookup_erase _ _
    refine alone_op_leaves (M := system dep calls) (fun _ _ => hpurged) fun now x hlook => ?_
    have hlook : Returns ((Op.query fun w : World => .ok w.now).exec dep) v now x := hlook
    obtain ⟨-, rfl⟩ := query_returns hlook
    have hrow := hread.row.evolve hpurged.later.db
    refine alone_perform_leaves (M := system dep calls) (fun _ _ => hpurged) fun b x hmarked =>
      hpurged.trans ?_
    have howes : Op.Owes dep v (.write (.markPurged id row cutoff now)) := hrow.candidate
    refine .op hpurged.inv hpurged.clean howes (write_quiet rfl fun _ => rfl) rfl ?_ hmarked
    intro id' old hmarks hold _
    cases hmarks
    rw [(hrow.later old hold).same.storageKey]
    exact hgone
  · split <;> exact hv

theorem purgeAll_swept (hi : w.Inv dep) (hc : Clean w) {cutoff : Instant}
    {rows : List (Uuid × Artifact)} (h : ∀ e ∈ rows, PurgeRead w e.1 e.2 cutoff) :
    Swept dep w (alone (M := system dep calls) (purgeAll cutoff rows) w).2 := by
  induction rows generalizing w with
  | nil => exact .refl hi hc
  | cons e rows ih =>
    have hone := @purgeOne_swept dep calls w hi hc _ _ _ (h e List.mem_cons_self)
    refine alone_bind_leaves (M := system dep calls) (p := purgeOne e.1 e.2 cutoff) hone
      fun purged _ => ?_
    have hrest := ih hone.inv hone.clean fun e' he' =>
      (h e' (List.mem_cons_of_mem _ he')).evolve hone.later.db hone.later.now
    exact alone_bind_leaves (M := system dep calls) (hone.trans hrest) fun n _ => hone.trans hrest

theorem purgeDue_swept (hi : w.Inv dep) (hc : Clean w) (limit : Nat) :
    Swept dep w (alone (M := system dep calls) (purgeDue limit) w).2 := by
  refine alone_op_leaves (M := system dep calls) (fun _ _ => .refl hi hc) fun now x hlook => ?_
  have hlook : Returns ((Op.query fun w : World => .ok w.now).exec dep) w now x := hlook
  obtain ⟨hnow, rfl⟩ := query_returns hlook
  refine alone_op_leaves (M := system dep calls) (fun _ _ => .refl hi hc) fun rows x hread => ?_
  have hread : Returns ((Op.query fun x : World =>
    ((purgeCandidates now limit).run x.db).map (·.1)).exec dep) w rows x := hread
  obtain ⟨hrows, rfl⟩ := query_returns hread
  cases hrun : (purgeCandidates now limit).run w.db with
  | error e => rw [hrun] at hrows; cases hrows
  | ok r =>
    rw [hrun] at hrows
    cases hrows
    cases hnow
    have hcandidates : Returns (purgeCandidates w.now limit) w.db r.1 r.2 := hrun
    refine purgeAll_swept hi hc fun e he => ?_
    obtain ⟨hrow, hdead, hdue⟩ := purgeCandidates_rows hcandidates e he
    exact ⟨.of_lookup hi.db hi.lifecycle hi.storage hrow, hdead, hdue, Nat.le_refl _⟩

end ArtifactService

/-! ## A reconciliation alone -/

/-- The world without the objects of these keys. -/
def World.without (keys : List String) (w : World) : World :=
  { w with objects := w.objects.deleteWhere fun k _ => keys.contains k.render }

/-- Every object is older than the cutoff. -/
def World.Settled (cutoff : Instant) (w : World) : Prop :=
  ∀ {key object}, w.objects.lookup key = some object → object.modifiedAt ≤ cutoff

theorem World.without_lookup {keys : List String} {w : World} {key : StorageKey}
    {object : StoredObject} :
    (w.without keys).objects.lookup key = some object ↔
      w.objects.lookup key = some object ∧ key.render ∉ keys := by
  rw [without, Table.lookup_deleteWhere, List.contains_eq_mem, decide_eq_false_iff_not]

theorem World.without_without {keys keys' : List String} {w : World} :
    (w.without keys).without keys' = w.without (keys ++ keys') := by
  unfold without
  rw [Table.deleteWhere_deleteWhere]
  simp only [List.contains_eq_mem, List.mem_append, Bool.decide_or]

/-- Deleting one key is deleting by its name. -/
theorem World.without_one {key : String} {w : World} :
    w.without [key] = { w with objects := w.objects.deleteWhere fun k _ => k.render == key } := by
  unfold without
  have hname : ∀ name : String, [key].contains name = (name == key) := fun name => by
    rw [List.contains_cons, List.contains_nil, Bool.or_false]
  simp only [hname]

namespace ArtifactService

variable {w : World}

theorem without_storedKeys {keys : List String} :
    World.storedKeys (w.without keys) =
      (World.storedKeys w).filter fun key => !keys.contains key := by
  unfold World.storedKeys World.without Table.deleteWhere AList.keys List.keys
  rw [List.map_map, List.map_map, List.filter_map]
  rfl

theorem collect_returned (hup : w.available = true) (key : String) (seen : Db) :
    Returns (Request.collect key seen).body w () (w.without [key]) := by
  have hreach : Returns reachStore w () w := by
    have hrequire : Returns (Transaction.require (w.available = true)
        (.objectStore "object store is unavailable") : WorldTx Unit) w () w := by
      unfold Transaction.require
      rw [if_pos hup]
      rfl
    exact Returns.seq (a := w) rfl hrequire
  rw [World.without_one]
  exact hreach.seq rfl

theorem collectOne_alone {seen : Db} {cutoff : Instant} (hup : w.available = true)
    (hold : w.Settled cutoff) (key : String) :
    ∃ b, alone (M := system dep calls) (collectOne seen cutoff key) w =
      (.ok b, w.without [key]) := by
  cases hfind : w.objects.find fun k _ => k.render == key with
  | none =>
    refine ⟨false, ?_⟩
    have hsame : w.without [key] = w := by
      rw [World.without_one, Table.deleteWhere_none]
      intro e he
      have hentry : w.objects.lookup e.1 = some e.2 := AList.mem_lookup_iff.mpr he
      have hother := Table.find_none hfind hentry
      exact hother
    rw [hsame]
    refine (alone_handle_error (M := system dep calls) (e := .objectNotFound "object not found")
      (v := w) ?_).trans rfl
    show alone (M := system dep calls) (Prog.found ((w.objects.find fun k _ => k.render == key).map
      (·.2)) _ >>= _) w = _
    rw [hfind]
    rfl
  | some e =>
    refine ⟨true, alone_handle_ok (M := system dep calls) ?_⟩
    show alone (M := system dep calls) (Prog.found ((w.objects.find fun k _ => k.render == key).map
      (·.2)) _ >>= _) w = _
    rw [hfind]
    have hfound : w.objects.lookup e.1 = some e.2 := (Table.find_some hfind).1
    have hyoung : ¬ cutoff < e.2.modifiedAt := Nat.not_lt.mpr (hold hfound)
    show alone (M := system dep calls) (if cutoff < e.2.modifiedAt then pure false else _) w = _
    rw [if_neg hyoung]
    refine (alone_bind_ok (M := system dep calls) (a := ()) (v := w.without [key]) ?_).trans rfl
    unfold ask
    rw [alone_perform]
    exact (collect_returned hup key seen).commit

theorem World.Settled.without {cutoff : Instant} (h : w.Settled cutoff) (keys : List String) :
    (w.without keys).Settled cutoff :=
  fun hobject => h (World.without_lookup.mp hobject).1

theorem collectAll_alone {seen : Db} {cutoff : Instant} (hup : w.available = true)
    (hold : w.Settled cutoff) (keys : List String) :
    ∃ n, alone (M := system dep calls) (collectAll seen cutoff keys) w =
      (.ok n, w.without keys) := by
  induction keys generalizing w with
  | nil =>
    refine ⟨0, ?_⟩
    have hsame : w.without [] = w := by
      unfold World.without
      rw [Table.deleteWhere_none fun _ _ => rfl]
    rw [hsame]
    rfl
  | cons key keys ih =>
    obtain ⟨b, hone⟩ := @collectOne_alone dep calls w seen cutoff hup hold key
    obtain ⟨n, hrest⟩ := @ih (w.without [key]) hup (World.Settled.without hold _)
    rw [World.without_without] at hrest
    refine ⟨if b then n + 1 else n, ?_⟩
    exact (alone_bind_ok (M := system dep calls) hone).trans
      ((alone_bind_ok (M := system dep calls) hrest).trans rfl)

theorem reconcileOrphans_alone {cursor : Option String} {limit : Nat} {page : Page}
    (hup : w.available = true) (hold : w.Settled (w.now - dep.orphanGrace))
    (h : reconcile (World.storedKeys w) w.db.artifacts cursor limit = .ok page) :
    ∃ n, alone (M := system dep calls) (reconcileOrphans dep cursor limit) w =
      (.ok (n, page.nextCursor), w.without page.orphans) := by
  unfold reconcile at h
  split at h
  · next hlisting =>
    cases h
    obtain ⟨n, hcollect⟩ := @collectAll_alone dep calls w w.db _ hup hold
      (reconciliationPage w.db.artifacts (ObjectStore.listKeys (World.storedKeys w) limit cursor)
        cursor limit).orphans
    refine ⟨n, ?_⟩
    unfold reconcileOrphans Prog.require
    rw [if_pos hlisting]
    exact (alone_bind_ok (M := system dep calls) hcollect).trans rfl
  · cases h

/-- A reconciliation by itself, each call from the cursor the last one answered, as far as
`fuel` calls go. -/
def reconcileAlone (dep : Deployment) (limit : Nat) : Nat → Option String → World → Option World
  | 0, _, _ => none
  | fuel + 1, cursor, w =>
    match alone (M := system dep (services dep))
      ((ServiceCall.reconcileOrphans cursor limit).prog dep) w with
    | (.ok (_, none), left) => some left
    | (.ok (_, some next), left) => reconcileAlone dep limit fuel (some next) left
    | (.error _, _) => none

/-- A page without a next cursor is the last. -/
theorem reconcileAlone_last {limit fuel n : Nat} {cursor : Option String} {left w' : World}
    (hcall : alone (M := system dep (services dep))
      ((ServiceCall.reconcileOrphans cursor limit).prog dep) w = (.ok (n, none), left))
    (h : reconcileAlone dep limit fuel cursor w = some w') : left = w' := by
  cases fuel with
  | zero => cases h
  | succ fuel =>
    unfold reconcileAlone at h
    rw [hcall] at h
    exact Option.some.inj h

/-- Purges by themselves, with these limits. -/
def purgeAlone (dep : Deployment) (limits : List Nat) (w : World) : World :=
  limits.foldl (fun w limit =>
    (alone (M := system dep (services dep)) ((ServiceCall.purgeArtifacts limit).prog dep) w).2) w

/-- A reconciliation deletes what its pages find without a row. -/
theorem reconcileAlone_sweep {limit fuel : Nat} {cursor : Option String} {pages : List Page}
    (hup : w.available = true) (hold : w.Settled (w.now - dep.orphanGrace))
    (h : sweep w.db.artifacts limit (fun _ => true) fuel (World.storedKeys w) cursor =
      .ok (some pages)) :
    reconcileAlone dep limit fuel cursor w = some (w.without (pages.flatMap Page.orphans)) := by
  induction fuel generalizing w cursor pages with
  | zero => cases h
  | succ fuel ih =>
    unfold sweep at h
    cases hpage : reconcile (World.storedKeys w) w.db.artifacts cursor limit with
    | error e =>
      rw [hpage] at h
      cases h
    | ok page =>
      rw [hpage] at h
      simp only [bind, Except.bind, pure, Except.pure, Bool.and_true] at h
      obtain ⟨n, hcall⟩ := @reconcileOrphans_alone dep (services dep) w _ _ _ hup hold hpage
      have hcall : alone (M := system dep (services dep))
        ((ServiceCall.reconcileOrphans cursor limit).prog dep) w = _ := hcall
      unfold reconcileAlone
      rw [hcall]
      cases hnext : page.nextCursor with
      | none =>
        simp only [hnext] at h
        cases h
        simp
      | some next =>
        simp only [hnext] at h
        split at h
        · cases h
        · next later hlater =>
          cases later with
          | none => cases h
          | some rest =>
            cases h
            have hleft := @ih (w.without page.orphans) (some next) rest hup
              (World.Settled.without hold _) (by rw [without_storedKeys]; exact hlater)
            rw [World.without_without] at hleft
            exact hleft

end ArtifactService

/-! ## The sweep -/

/-- The identifiers in the keys of rows and objects are UUIDs. -/
structure World.Uuids (w : World) : Prop where
  rows : ∀ {id row}, w.db.artifacts.lookup id = some row → row.storageKey.Uuids
  objects : ∀ {key object}, w.objects.lookup key = some object → key.Uuids

/-- Every object of the namespace has a row that is not deleted. -/
def World.Reclaimed (w : World) : Prop :=
  ∀ key, key.isArtifact = true → w.objects.lookup key ≠ none →
    ∃ id row, w.db.artifacts.lookup id = some row ∧ row.storageKey = key ∧ row.state ≠ .deleted

section Sweeps

open ArtifactService

variable {w : World}

theorem purgeAlone_swept (hi : w.Inv dep) (hc : Clean w) (limits : List Nat) :
    Swept dep w (purgeAlone dep limits w) := by
  induction limits generalizing w with
  | nil => exact .refl hi hc
  | cons limit limits ih =>
    have hone := @purgeDue_swept dep (services dep) w hi hc limit
    exact hone.trans (ih hone.inv hone.clean)

/-- The sweeps a reconciliation runs through answer all their pages, and what stays is
referenced by a row. -/
theorem reconcileAlone_reclaims {limit : Nat} (hi : w.Inv dep) (hc : Clean w)
    (hup : w.available = true) (hids : w.Uuids) (hold : w.Settled (w.now - dep.orphanGrace))
    (hlimit : 1 ≤ limit ∧ limit ≤ 10000) :
    ∃ fuel w', reconcileAlone dep limit fuel none w = some w' ∧ w'.Reclaimed := by
  let table : ArtifactTable := {
    artifacts := w.db.artifacts
    built := fun e he => by
      rw [hi.storage.keyed (Table.mem_rows.mp he)]
      rfl
    unique := Table.rows_nodup.pairwise_of_forall_ne fun a ha b hb hne hname => by
      have ha := Table.mem_rows.mp ha
      have hb := Table.mem_rows.mp hb
      have hkey := StorageKey.render_injective (hids.rows ha) (hids.rows hb) hname
      have hid := hi.db.stored.unique ha hb (.inr hkey)
      rw [hid, hb] at ha
      exact hne (Prod.ext hid (Option.some.inj ha).symm) }
  have hobject : ∀ key ∈ w.objects.keys, ∃ object, w.objects.lookup key = some object := by
    intro key hkey
    exact Option.isSome_iff_exists.mp (AList.lookup_isSome.mpr hkey)
  have hnodup : (World.storedKeys w).Nodup := by
    refine List.Nodup.map_on (fun a ha b hb hname => ?_) w.objects.keys_nodup
    obtain ⟨x, hx⟩ := hobject a ha
    obtain ⟨y, hy⟩ := hobject b hb
    exact StorageKey.render_injective (hids.objects hx) (hids.objects hy) hname
  have hvalid : ∀ key ∈ World.storedKeys w,
      ObjectStore.startsWith key ObjectStore.artifactNamespace = true →
        ObjectStore.validKey key = true := by
    intro key hkey hstart
    obtain ⟨k, -, rfl⟩ := List.mem_map.mp hkey
    exact ObjectStore.validKey_artifact (isArtifact_of_startsWith hstart)
  have hlisting : ObjectStore.validListing limit none = true := by
    unfold ObjectStore.validListing
    rw [decide_eq_true hlimit]
    rfl
  obtain ⟨pages, hsweep, hpages⟩ := sweep_of table hlimit (fun _ => true) hnodup hvalid hlisting
    (Nat.lt_succ_self _)
  refine ⟨_, _, reconcileAlone_sweep hup hold hsweep, fun key hartifact hstored => ?_⟩
  obtain ⟨object, hstored⟩ := Option.ne_none_iff_exists'.mp hstored
  obtain ⟨hthere, hkept⟩ := World.without_lookup.mp hstored
  -- the key is on a page, and not among its orphans
  have hkeys := hpages.keys
  rw [beyond_start] at hkeys
  have hlisted : key.render ∈ pages.flatMap Page.keys := by
    rw [hkeys, mem_keyStream]
    have hmem : key ∈ w.objects.keys :=
      AList.lookup_isSome.mp (Option.isSome_iff_exists.mpr ⟨_, hthere⟩)
    exact ⟨List.mem_map_of_mem hmem, ObjectStore.startsWith_artifact hartifact⟩
  obtain ⟨page, hpage, hkey⟩ := List.mem_flatMap.mp hlisted
  have hreferenced : key.render ∈ page.referenced := by
    by_contra hno
    refine hkept (List.mem_flatMap.mpr ⟨page, hpage, List.mem_filter.mpr ⟨hkey, ?_⟩⟩)
    rw [Bool.not_eq_true', List.contains_eq_mem, decide_eq_false_iff_not]
    exact hno
  obtain ⟨e, he, hname⟩ := sweep_referenced hsweep page hpage _ hreferenced
  have hrow : w.db.artifacts.lookup e.1 = some e.2 := Table.mem_rows.mp he
  have hsame := StorageKey.render_injective (hids.rows hrow) (hids.objects hthere) hname
  refine ⟨e.1, e.2, hrow, hsame, fun hdead => ?_⟩
  have hgone := hc e.1 e.2 hrow hdead
  rw [hsame, hthere] at hgone
  cases hgone

theorem purgeAlone_steps (cfg : ServiceConfig dep) (limits : List Nat) :
    ∃ cfg', Relation.ReflTransGen (Step free) cfg cfg' ∧
      cfg'.world = purgeAlone dep limits cfg.world := by
  induction limits generalizing cfg with
  | nil => exact ⟨cfg, .refl, rfl⟩
  | cons limit limits ih =>
    obtain ⟨history, hcall⟩ := call_alone cfg (ServiceCall.purgeArtifacts limit)
    obtain ⟨cfg', hsteps, hworld⟩ := ih ⟨_, _⟩
    exact ⟨cfg', hcall.trans hsteps, hworld⟩

/-- The calls of a reconciliation by itself are calls of the system. -/
theorem reconcileAlone_steps {cfg : ServiceConfig dep} {limit fuel : Nat} {cursor : Option String}
    {w' : World} (h : reconcileAlone dep limit fuel cursor cfg.world = some w') :
    ∃ cfg', Relation.ReflTransGen (Step free) cfg cfg' ∧ cfg'.world = w' := by
  induction fuel generalizing cfg cursor with
  | zero => cases h
  | succ fuel ih =>
    obtain ⟨history, hcall⟩ := call_alone cfg (ServiceCall.reconcileOrphans cursor limit)
    unfold reconcileAlone at h
    split at h
    · next n left halone =>
      cases h
      refine ⟨_, hcall, ?_⟩
      exact congrArg Prod.snd halone
    · next n next left halone =>
      have hleft := congrArg Prod.snd halone
      rw [← show _ = left from hleft] at h
      obtain ⟨cfg', hsteps, hworld⟩ := @ih ⟨_, _⟩ _ h
      exact ⟨cfg', hcall.trans hsteps, hworld⟩
    · cases h

/-- In every run in which no put that reaches the store has the key of a deleted row, and
no purge marks a row whose object is there again: when the orphan grace has passed for all
objects, purges and a complete reconciliation with a healthy store leave an object of the
namespace only under a row that is not deleted. -/
theorem purged_objects_reclaimed {memberships : List Membership} {cfg : ServiceConfig dep}
    (h : Reachable Unrevived (World.initial memberships) cfg) (hup : cfg.world.available = true)
    (hids : cfg.world.Uuids)
    (hgrace : ∀ key object, cfg.world.objects.lookup key = some object →
      object.modifiedAt + dep.orphanGrace ≤ cfg.world.now)
    (purges : List Nat) {limit : Nat} (hlimit : 1 ≤ limit ∧ limit ≤ 10000) :
    ∃ fuel w', reconcileAlone dep limit fuel none (purgeAlone dep purges cfg.world) = some w' ∧
      (∃ cfg', Relation.ReflTransGen (Step free) cfg cfg' ∧ cfg'.world = w') ∧ w'.Reclaimed := by
  have hi : cfg.world.Inv dep := reachable_inv (lawful_reachable h)
  have hswept := @purgeAlone_swept dep cfg.world hi (clean_reachable h) purges
  have hold : (purgeAlone dep purges cfg.world).Settled
      ((purgeAlone dep purges cfg.world).now - dep.orphanGrace) := by
    intro key object hobject
    rw [hswept.now]
    exact Nat.le_sub_of_add_le (hgrace key object (hswept.objects hobject))
  have hkeys : (purgeAlone dep purges cfg.world).Uuids := by
    refine ⟨fun hrow => ?_, fun hobject => hids.objects (hswept.objects hobject)⟩
    obtain ⟨old, hrow, hkey⟩ := hswept.rows hrow
    exact hkey ▸ hids.rows hrow
  obtain ⟨fuel, w', hsweep, hreclaimed⟩ := reconcileAlone_reclaims hswept.inv hswept.clean
    (hswept.available.trans hup) hkeys hold hlimit
  refine ⟨fuel, w', hsweep, ?_, hreclaimed⟩
  obtain ⟨purged, hpurge, hworld⟩ := purgeAlone_steps cfg purges
  rw [← hworld] at hsweep
  obtain ⟨cfg', hsteps, hleft⟩ := reconcileAlone_steps hsweep
  exact ⟨cfg', hpurge.trans hsteps, hleft⟩

end Sweeps

/-- Nothing is deleted yet, and nothing is marked. -/
def undeleted : Config Small → (β : Type) → Small.Op β → Bool := fun cfg _ o =>
  (Op.discards? o).isNone && cfg.world.db.artifacts.rows.all fun e => e.2.state != .deleted

theorem undeleted_unrevived {cfg : Config Small} {j : Job Small} {β : Type} {o : Small.Op β}
    (h : undeleted cfg β o = true) : Unrevived cfg j β o := by
  unfold undeleted at h
  obtain ⟨hmarks, hrows⟩ := Bool.and_eq_true_iff.mp h
  refine ⟨fun key _ _ id row hrow hdead => ?_, fun id row hdiscards => ?_⟩
  · have hlive := List.all_eq_true.mp hrows (id, row) (Table.mem_rows.mpr hrow)
    rw [hdead] at hlive
    cases hlive
  · rw [hdiscards] at hmarks
    cases hmarks

/-- The text is the only object and the only row, the store is up, and the grace is over. -/
def smallSettled (w : World) : Bool :=
  w.available && w.objects.entries.all (fun e => decide (e.1 = smallKey ∧
    e.2.modifiedAt + Deployment.small.orphanGrace ≤ w.now)) &&
      w.db.artifacts.rows.all fun e => decide (e.2.storageKey = smallKey)

theorem smallSettled_spec {w : World} (h : smallSettled w = true) : w.available = true ∧ w.Uuids ∧
    ∀ key object, w.objects.lookup key = some object →
      object.modifiedAt + Deployment.small.orphanGrace ≤ w.now := by
  unfold smallSettled at h
  obtain ⟨h, hrows⟩ := Bool.and_eq_true_iff.mp h
  obtain ⟨hup, hobjects⟩ := Bool.and_eq_true_iff.mp h
  have hsmall : smallKey.Uuids := ⟨by decide, by decide, nofun⟩
  have hobject : ∀ {key object}, w.objects.lookup key = some object →
      key = smallKey ∧ object.modifiedAt + Deployment.small.orphanGrace ≤ w.now := by
    intro key object hlookup
    have hentry := AList.mem_lookup_iff.mp hlookup
    exact of_decide_eq_true (List.all_eq_true.mp hobjects ⟨key, object⟩ hentry)
  refine ⟨hup, ⟨fun {id row} hrow => ?_, fun hlookup => (hobject hlookup).1 ▸ hsmall⟩,
    fun key object hlookup => (hobject hlookup).2⟩
  have hkey := of_decide_eq_true (List.all_eq_true.mp hrows (id, row) (Table.mem_rows.mpr hrow))
  exact (show row.storageKey = smallKey from hkey) ▸ hsmall

theorem purged_objects_reclaimed_orphan :
    ∃ cfg fuel w', runIf undeleted smallStart orphanedUpload = some cfg ∧
      ArtifactService.reconcileAlone .small 10 fuel none
        (ArtifactService.purgeAlone .small [10] cfg.world) = some w' ∧ w'.Reclaimed := by
  have hrun : (runIf undeleted smallStart orphanedUpload).map (fun cfg => smallSettled cfg.world) =
      some true := by
    decide +kernel
  obtain ⟨cfg, hcfg, hrun⟩ := Option.map_eq_some_iff.mp hrun
  obtain ⟨hup, hids, hgrace⟩ := smallSettled_spec hrun
  have hreach : Reachable (M := Small) Unrevived (World.initial smallMembers) cfg :=
    @runIf_steps Small Unrevived undeleted (fun _ h => undeleted_unrevived h) _ _ _ hcfg
  have hlimit : 1 ≤ 10 ∧ 10 ≤ 10000 := by decide
  obtain ⟨fuel, w', hsweep, -, hreclaimed⟩ :=
    purged_objects_reclaimed hreach hup hids hgrace [10] hlimit
  exact ⟨cfg, fuel, w', hcfg, hsweep, hreclaimed⟩

/-- Calls 2 and 3 upload the same text, and call 2 is slow: it has seen no duplicate. The
artifact of call 3 is tombstoned and purged; then call 2 puts the text and loses its insert. -/
def revivedUpload : List (Move Small) :=
  smallProject ++ smallUpload :: acts Small 2 2 ++ smallUpload :: acts Small 3 7 ++
    .start (ServiceCall.tombstone ⟨"owner", 1, none⟩ 0 1) :: acts Small 4 2 ++
    .tick (.pass (seconds (31 * 24 * 60 * 60))) :: .start (ServiceCall.purgeArtifacts 10) ::
    acts Small 5 5 ++ acts Small 2 6 ++ [.tick (.pass (seconds (2 * 60 * 60)))]

/-- The first page of a reconciliation is its last, and leaves the text under a deleted row. -/
def smallLeftover (w : World) : Bool :=
  let swept := alone (M := Small) ((ServiceCall.reconcileOrphans none 10).prog .small)
    (ArtifactService.purgeAlone .small [10] w)
  decide (swept.1.toOption.map (·.2) = some none) && (swept.2.objects.lookup smallKey).isSome &&
    swept.2.db.artifacts.rows.all fun e => e.2.state == .deleted

theorem smallLeftover_spec {w : World} (h : smallLeftover w = true) {fuel : Nat} {w' : World}
    (hsweep : ArtifactService.reconcileAlone .small 10 fuel none
      (ArtifactService.purgeAlone .small [10] w) = some w') : ¬ w'.Reclaimed := by
  unfold smallLeftover at h
  generalize ArtifactService.purgeAlone .small [10] w = purged at h hsweep
  cases hcall : alone (M := Small) ((ServiceCall.reconcileOrphans none 10).prog .small)
      purged with
  | mk r left =>
    simp only [hcall] at h
    obtain ⟨h, hrows⟩ := Bool.and_eq_true_iff.mp h
    obtain ⟨hanswer, hobject⟩ := Bool.and_eq_true_iff.mp h
    have hanswer := of_decide_eq_true hanswer
    cases r with
    | error e => cases hanswer
    | ok answer =>
      obtain ⟨n, cursor⟩ := answer
      cases hanswer
      obtain rfl := ArtifactService.reconcileAlone_last hcall hsweep
      intro hreclaimed
      have hthere : left.objects.lookup smallKey ≠ none := fun hnone => by
        rw [hnone] at hobject
        cases hobject
      obtain ⟨id, row, hrow, -, hlive⟩ := hreclaimed smallKey rfl hthere
      have hdead := List.all_eq_true.mp hrows (id, row) (Table.mem_rows.mpr hrow)
      exact hlive (beq_iff_eq.mp hdead)

theorem purged_objects_revived :
    ¬ ∀ cfg : Config Small, Reachable (M := Small) free (World.initial smallMembers) cfg →
      cfg.world.available = true → cfg.world.Uuids →
      (∀ key object, cfg.world.objects.lookup key = some object →
        object.modifiedAt + Deployment.small.orphanGrace ≤ cfg.world.now) →
      (∀ j ∈ cfg.jobs, j.running = false) →
      ∃ fuel w', ArtifactService.reconcileAlone .small 10 fuel none
        (ArtifactService.purgeAlone .small [10] cfg.world) = some w' ∧ w'.Reclaimed := by
  intro hclaim
  have hrun : (smallRun revivedUpload).map (fun cfg => (smallSettled cfg.world,
      smallLeftover cfg.world, cfg.jobs.all fun j => !j.running)) = some (true, true, true) := by
    decide +kernel
  obtain ⟨cfg, hcfg, hrun⟩ := Option.map_eq_some_iff.mp hrun
  obtain ⟨hsettled, hrun⟩ := Prod.mk.inj hrun
  obtain ⟨hleft, hjobs⟩ := Prod.mk.inj hrun
  obtain ⟨hup, hids, hgrace⟩ := smallSettled_spec hsettled
  obtain ⟨fuel, w', hsweep, hreclaimed⟩ := hclaim cfg (smallRun_reachable hcfg) hup hids hgrace
    fun j hj => Bool.eq_false_of_not_eq_true' (List.all_eq_true.mp hjobs j hj)
  exact smallLeftover_spec hleft hsweep hreclaimed

end CorpusKit
