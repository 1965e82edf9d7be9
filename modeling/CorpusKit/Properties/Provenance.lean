import CorpusKit.Properties.Adoptions
import CorpusKit.Refinement.Provenance
import CorpusKit.System.Obligations

/-! # The record of an execution is written once

The facts of an execution never change once they are recorded, the manifest of the
run is linked once and stays linked, and the lineage of a replay is fixed but for
the one manifest observed for it. The records only go with their project. -/

namespace CorpusKit

open Transaction Program Interleaving

variable {dep : Deployment} {memberships : List Membership} {db db' db'' : Db} {id : Uuid}

/-! ## Rows that last as long as their project -/

/-- Rows stay, later by `R`, unless their project goes. -/
def Lasts {ρ : Type} (project : ρ → Uuid) (R : ρ → ρ → Prop) (db db' : Db) (t t' : Table Uuid ρ) :
    Prop :=
  ∀ id r, t.lookup id = some r → project r < db.nextId →
    (∃ r', t'.lookup id = some r' ∧ R r r') ∨ db'.projects.lookup (project r) = none

section Lasts

variable {ρ : Type} {project : ρ → Uuid} {R : ρ → ρ → Prop} {t t' t'' : Table Uuid ρ} {r r' : ρ}

theorem Lasts.refl (hR : ∀ r, R r r) (db db' : Db) (t : Table Uuid ρ) : Lasts project R db db' t t :=
  fun _ _ h _ => .inl ⟨_, h, hR _⟩

/-- A project that has gone does not come back. -/
theorem Db.Later.gone (h : db.Later db') {projectId : Uuid} (hid : projectId < db.nextId)
    (hnone : db.projects.lookup projectId = none) : db'.projects.lookup projectId = none := by
  cases hlookup : db'.projects.lookup projectId with
  | none => rfl
  | some p =>
    obtain ⟨old, hold, -⟩ := h.projects _ _ hlookup hid
    rw [hnone] at hold
    cases hold

theorem Lasts.trans (hR : ∀ {a b c}, R a b → R b c → R a c) (hproject : ∀ {a b}, R a b →
    project b = project a) (hl : db.Later db') (hl' : db'.Later db'')
    (h : Lasts project R db db' t t') (h' : Lasts project R db' db'' t' t'') :
    Lasts project R db db'' t t'' := by
  intro id r hr hknown
  have hmid := Nat.lt_of_lt_of_le hknown hl.next
  obtain ⟨r', hr', hlater⟩ | hgone := h id r hr hknown
  · obtain ⟨r'', hr'', hlater'⟩ | hgone := h' id r' hr' (by rw [hproject hlater]; exact hmid)
    · exact .inl ⟨r'', hr'', hR hlater hlater'⟩
    · rw [hproject hlater] at hgone
      exact .inr hgone
  · exact .inr (hl'.gone hmid hgone)

/-- A row appears under a free key. -/
theorem Lasts.insert (hR : ∀ r, R r r) (hfree : t.lookup id = none) :
    Lasts project R db db' t (t.insert id r) := by
  intro id' r' hr' _
  refine .inl ⟨r', ?_, hR r'⟩
  rwa [AList.lookup_insert_ne]
  rintro rfl
  rw [hfree] at hr'
  cases hr'

/-- A row moves on. -/
theorem Lasts.replace (hR : ∀ r, R r r) (hold : t.lookup id = some r) (hlater : R r r') :
    Lasts project R db db' t (t.insert id r') := by
  intro id' old hr' _
  by_cases hid : id' = id
  · subst hid
    rw [hold] at hr'
    cases hr'
    exact .inl ⟨r', AList.lookup_insert _, hlater⟩
  · exact .inl ⟨old, (AList.lookup_insert_ne hid).trans hr', hR old⟩

/-- The rows of a project go with it. -/
theorem Lasts.erase {p : Uuid → ρ → Bool} (hR : ∀ r, R r r)
    (hp : ∀ k r, p k r = true → db'.projects.lookup (project r) = none) :
    Lasts project R db db' t (t.deleteWhere p) := by
  intro id r hr _
  cases hgone : p id r with
  | true => exact .inr (hp id r hgone)
  | false => exact .inl ⟨r, Table.lookup_deleteWhere.mpr ⟨hr, hgone⟩, hR r⟩

end Lasts

/-! ## Records that are written once -/

/-- The later record of an execution: only a manifest that was not linked may be. -/
structure RunExecutionFact.Later (f f' : RunExecutionFact) : Prop where
  same : f' = { f with
    manifestArtifactId := f'.manifestArtifactId, manifestSha256 := f'.manifestSha256 }
  linked : f.manifestArtifactId ≠ none →
    f'.manifestArtifactId = f.manifestArtifactId ∧ f'.manifestSha256 = f.manifestSha256

theorem RunExecutionFact.Later.refl (f : RunExecutionFact) : f.Later f := ⟨rfl, fun _ => ⟨rfl, rfl⟩⟩

theorem RunExecutionFact.Later.trans {a b c : RunExecutionFact} (h : a.Later b) (h' : b.Later c) :
    a.Later c where
  same := by rw [h'.same, h.same]
  linked hlinked := by
    obtain ⟨hid, hsha⟩ := h.linked hlinked
    obtain ⟨hid', hsha'⟩ := h'.linked (by rw [hid]; exact hlinked)
    exact ⟨hid'.trans hid, hsha'.trans hsha⟩

/-- The later lineage of a replay: only a manifest that was not observed may be. -/
structure RunReplay.Later (r r' : RunReplay) : Prop where
  same : r' = { r with observedManifestArtifactId := r'.observedManifestArtifactId }
  observed : r.observedManifestArtifactId ≠ none →
    r'.observedManifestArtifactId = r.observedManifestArtifactId

theorem RunReplay.Later.refl (r : RunReplay) : r.Later r := ⟨rfl, fun _ => rfl⟩

theorem RunReplay.Later.trans {a b c : RunReplay} (h : a.Later b) (h' : b.Later c) : a.Later c where
  same := by rw [h'.same, h.same]
  observed hseen := by
    have hsame := h.observed hseen
    exact (h'.observed (by rw [hsame]; exact hseen)).trans hsame

/-- The database has moved on, and still has the records it had. -/
structure Db.Remembers (db db' : Db) : Prop where
  later : db.Later db'
  facts : Lasts RunExecutionFact.projectId RunExecutionFact.Later db db' db.runExecutionFacts
    db'.runExecutionFacts
  replays : Lasts RunReplay.projectId RunReplay.Later db db' db.runReplays db'.runReplays

theorem Db.Remembers.refl (db : Db) : db.Remembers db :=
  ⟨.refl db, .refl .refl _ _ _, .refl .refl _ _ _⟩

theorem Db.Remembers.trans (h : db.Remembers db') (h' : db'.Remembers db'') : db.Remembers db'' where
  later := h.later.trans h'.later
  facts := .trans (fun h => h.trans) (fun h => by rw [h.same]) h.later h'.later h.facts h'.facts
  replays := .trans (fun h => h.trans) (fun h => by rw [h.same]) h.later h'.later h.replays h'.replays

/-- Nothing was recorded. -/
theorem Db.Later.remembers (h : db.Later db')
    (hsame : Records db.runExecutionFacts db.runReplays db') : db.Remembers db' := by
  refine ⟨h, ?_, ?_⟩
  · rw [hsame.1]
    exact .refl .refl _ _ _
  · rw [hsame.2]
    exact .refl .refl _ _ _

/-! ## What the records are about -/

/-- The record is of a run of a project there has been, and the manifest it names is there
as long as the project. -/
structure RunExecutionFact.Known (db : Db) (runId : Uuid) (f : RunExecutionFact) : Prop where
  run : runId < db.nextId
  project : f.projectId < db.nextId
  owner : ∀ {run}, db.runs.lookup runId = some run → run.projectId = f.projectId
  manifest : ∀ {artifactId}, f.manifestArtifactId = some artifactId → artifactId < db.nextId ∧
    ∃ sha256, f.manifestSha256 = some sha256 ∧
      (db.IsManifest artifactId f.projectId runId sha256 ∨ db.projects.lookup f.projectId = none)

/-- A manifest stays a manifest, unless its project goes. -/
theorem Db.IsManifest.later {artifactId projectId runId : Uuid} {sha256 : Sha256}
    (h : db.IsManifest artifactId projectId runId sha256) (hid : artifactId < db.nextId)
    (hknown : projectId < db.nextId) (hl : db.Later db') :
    db'.IsManifest artifactId projectId runId sha256 ∨ db'.projects.lookup projectId = none := by
  obtain ⟨row, hrow, rfl, hrun, hscope, hkind, hsha⟩ := h
  obtain ⟨row', hrow'⟩ | hgone := hl.stay hrow hid hknown
  · obtain ⟨old, hold, hlater⟩ := hl.artifacts _ _ hrow' hid
    rw [hrow] at hold
    cases hold
    have hsame := hlater.same
    exact .inl ⟨row', hrow', hsame.projectId, hsame.runId.trans hrun, hsame.scopeKey.trans hscope,
      hsame.kind.trans hkind, hsame.sha256.trans hsha⟩
  · exact .inr hgone

theorem RunExecutionFact.Known.later {runId : Uuid} {f : RunExecutionFact} (h : f.Known db runId)
    (hl : db.Later db') : f.Known db' runId where
  run := Nat.lt_of_lt_of_le h.run hl.next
  project := Nat.lt_of_lt_of_le h.project hl.next
  owner hrun' := by
    obtain ⟨run, hrun, hlater⟩ := hl.runs _ _ hrun' h.run
    exact hlater.projectId.trans (h.owner hrun)
  manifest hlink := by
    obtain ⟨hid, sha256, hsha, hmanifest | hgone⟩ := h.manifest hlink
    · exact ⟨Nat.lt_of_lt_of_le hid hl.next, sha256, hsha, hmanifest.later hid h.project hl⟩
    · exact ⟨Nat.lt_of_lt_of_le hid hl.next, sha256, hsha, .inr (hl.gone h.project hgone)⟩

/-- Every record is of a run and a project there have been. -/
structure Db.Recorded (db : Db) : Prop where
  facts : ∀ id f, db.runExecutionFacts.lookup id = some f → f.Known db id
  replays : ∀ id r, db.runReplays.lookup id = some r → id < db.nextId ∧ r.projectId < db.nextId

theorem Db.recorded_initial (memberships : List Membership) : (Db.initial memberships).Recorded :=
  ⟨fun _ _ h => (Table.not_mem_empty h).elim, fun _ _ h => (Table.not_mem_empty h).elim⟩

/-- Records that were there before, or are known now. -/
theorem Db.Recorded.step (h : db.Recorded) (hl : db.Later db')
    (hfacts : ∀ id f, db'.runExecutionFacts.lookup id = some f →
      db.runExecutionFacts.lookup id = some f ∨ f.Known db' id)
    (hreplays : ∀ id r, db'.runReplays.lookup id = some r →
      db.runReplays.lookup id = some r ∨ (id < db'.nextId ∧ r.projectId < db'.nextId)) :
    db'.Recorded where
  facts id f hf := (hfacts id f hf).elim (fun hold => (h.facts id f hold).later hl) fun hnew => hnew
  replays id r hr := by
    obtain hold | hnew := hreplays id r hr
    · obtain ⟨hid, hproject⟩ := h.replays id r hold
      exact ⟨Nat.lt_of_lt_of_le hid hl.next, Nat.lt_of_lt_of_le hproject hl.next⟩
    · exact hnew

/-! ## Transactions -/

section Actions

/-- The records of a transaction that leaves both tables. -/
theorem Db.Recorded.same (h : db.Recorded) (hl : db.Later db')
    (hsame : Records db.runExecutionFacts db.runReplays db') :
    db.Remembers db' ∧ db'.Recorded := by
  refine ⟨hl.remembers hsame, h.step hl (fun id f hf => .inl ?_) fun id r hr => .inl ?_⟩
  · rw [← hsame.1]
    exact hf
  · rw [← hsame.2]
    exact hr

theorem Db.Inv.activeProject_known (hi : db.Inv) {org projectId : Uuid}
    (h : db.activeProject org projectId = true) : projectId < db.nextId := by
  obtain ⟨project, hproject, -, -⟩ := activeProject_eq.mp h
  exact hi.projects _ _ hproject

/-- The lineage after a comparison, if one was recorded. -/
theorem compared_replays {runId manifestArtifactId : Uuid} (h : db.Recorded) (hl : db.Later db')
    (hreplays : db'.runReplays = db.runReplays ∨ ∃ replay,
      db.runReplays.lookup runId = some replay ∧ replay.observedManifestArtifactId = none ∧
        db'.runReplays = db.runReplays.insert runId
          { replay with observedManifestArtifactId := some manifestArtifactId }) :
    Lasts RunReplay.projectId RunReplay.Later db db' db.runReplays db'.runReplays ∧
      ∀ id r, db'.runReplays.lookup id = some r →
        db.runReplays.lookup id = some r ∨ (id < db'.nextId ∧ r.projectId < db'.nextId) := by
  obtain hsame | ⟨replay, hreplay, hnone, hsame⟩ := hreplays
  · rw [hsame]
    exact ⟨.refl .refl _ _ _, fun _ _ => .inl⟩
  · rw [hsame]
    refine ⟨.replace .refl hreplay ⟨rfl, fun hseen => absurd hnone hseen⟩, fun id r hr => ?_⟩
    obtain ⟨rfl, rfl⟩ | ⟨-, hold⟩ := Table.lookup_insert_cases hr
    · obtain ⟨hid, hproject⟩ := h.replays _ _ hreplay
      exact .inr ⟨Nat.lt_of_lt_of_le hid hl.next, Nat.lt_of_lt_of_le hproject hl.next⟩
    · exact .inl hold

theorem recordExecution_remembers {reference : RunWorkflowReference} {facts : TrustedExecutionFacts}
    {inputs : List InputDigest} {b : Bool} (hi : db.Inv) (h : db.Recorded) (hl : db.Later db')
    (hret : Returns (RunManifestService.recordExecution reference facts inputs) db b db') :
    db.Remembers db' ∧ db'.Recorded := by
  obtain ⟨-, hnone, run, hrun, hactive, rfl⟩ | ⟨-, rfl, -⟩ :=
    RunManifestService.recordExecution_returns hret
  · refine ⟨⟨hl, .insert .refl hnone, .refl .refl _ _ _⟩, h.step hl (fun id f hf => ?_) fun _ _ => .inl⟩
    obtain ⟨rfl, rfl⟩ | ⟨-, hold⟩ := Table.lookup_insert_cases hf
    · have hrow := (Db.run?_some hrun).1
      refine .inr ⟨hi.log.fresh _ _ hrow, hi.activeProject_known hactive, fun hagain => ?_, nofun⟩
      rw [hrow] at hagain
      cases hagain
      rfl
    · exact .inl hold
  · exact h.same hl ⟨rfl, rfl⟩

theorem finalizeManifest_remembers {policy : Option QuotaPolicyValues}
    {reference : RunWorkflowReference} {factsSha256 : Sha256} {outputs : List (Uuid × Artifact)}
    {manifest : RunManifest} {expected : Option RunManifest}
    {comparison : List (String × AuditValue)} {retentionUntil now : Instant} {answer : Uuid × Bool}
    (hi : db.Inv) (hkeyed : ∀ {id a}, db.artifacts.lookup id = some a → a.Keyed) (h : db.Recorded) (hl : db.Later db')
    (hret : Returns (RunManifestService.finalizeManifest policy reference factsSha256 outputs manifest
      expected comparison retentionUntil now) db answer db') :
    db.Remembers db' ∧ db'.Recorded := by
  obtain rfl | ⟨run, recorded, artifactId, hrun, hrecorded, hnone, hfacts, hknown, hmanifest,
      hreplays⟩ := RunManifestService.finalizeManifest_records hi.stored.fresh hkeyed hret
  · exact h.same hl ⟨rfl, rfl⟩
  · obtain ⟨hlasts, hcompared⟩ := compared_replays h hl hreplays
    refine ⟨⟨hl, ?_, hlasts⟩, h.step hl (fun id f hf => ?_) hcompared⟩
    · rw [hfacts]
      exact .replace .refl hrecorded ⟨rfl, fun hlinked => absurd hnone hlinked⟩
    · rw [hfacts] at hf
      obtain ⟨rfl, rfl⟩ | ⟨-, hold⟩ := Table.lookup_insert_cases hf
      · have howner : run.projectId = recorded.projectId := (h.facts _ _ hrecorded).owner hrun
        obtain ⟨hfresh, hproject, howned, -⟩ := (h.facts _ _ hrecorded).later hl
        refine .inr ⟨hfresh, hproject, howned, fun hlink => ?_⟩
        cases hlink
        exact ⟨hknown, _, rfl, .inl (howner ▸ hmanifest)⟩
      · exact .inl hold

theorem completeReplay_remembers {reference : RunWorkflowReference} {manifestArtifactId : Uuid}
    {expected : Option RunManifest} {comparison : List (String × AuditValue)} {now : Instant}
    {u : Unit} (h : db.Recorded) (hl : db.Later db')
    (hret : Returns (RunManifestService.completeReplay reference manifestArtifactId expected
      comparison now) db u db') : db.Remembers db' ∧ db'.Recorded := by
  unfold RunManifestService.completeReplay at hret
  obtain ⟨run, s, hread, hret⟩ := hret.bind
  obtain ⟨-, -, rfl⟩ := RunManifestService.runRow_returns hread
  obtain ⟨⟨-, -, hfacts⟩, hreplays⟩ := RunManifestService.commitReplayComparison_records hret
  obtain ⟨hlasts, hcompared⟩ := compared_replays h hl hreplays
  refine ⟨⟨hl, ?_, hlasts⟩, h.step hl (fun id f hf => .inl ?_) hcompared⟩
  · rw [hfacts]
    exact .refl .refl _ _ _
  · rw [← hfacts]
    exact hf

theorem insertReplay_remembers {admits : RunKind → RunSpec → Bool}
    {policy : Option QuotaPolicyValues} {s : RunManifestService.NewReplay} {now : Instant}
    {answer : RunManifestService.ReplayCreation} (hi : db.Inv) (h : db.Recorded) (hl : db.Later db')
    (hlifecycle : db.Lifecycle) (hi' : db'.Inv)
    (hret : Returns (RunManifestService.insertReplay admits policy s now) db answer db') :
    db.Remembers db' ∧ db'.Recorded := by
  have hfacts : db'.runExecutionFacts = db.runExecutionFacts :=
    RunManifestService.insertReplay_facts admits policy s now db answer db' rfl hret
  obtain ⟨-, source, hsource, hreplay⟩ := RunManifestService.insertReplay_changes hi hret
  cases hreplay with
  | existing hdb => exact hdb ▸ h.same (.refl db) ⟨rfl, rfl⟩
  | created userId hcreated hkey hid hrun hreplay hruns hreplays =>
    obtain ⟨project, hproject, -⟩ := hlifecycle.runs (Db.run?_some hsource.run).1
    have hknown := Nat.lt_of_lt_of_le (hi.projects _ _ hproject) hl.next
    refine ⟨⟨hl, ?_, ?_⟩, h.step hl (fun id f hf => .inl ?_) fun id r hr => ?_⟩
    · rw [hfacts]
      exact .refl .refl _ _ _
    · rw [hreplays]
      exact .insert .refl hi.replays.none
    · rw [← hfacts]
      exact hf
    · rw [hreplays] at hr
      obtain ⟨rfl, rfl⟩ | ⟨-, hold⟩ := Table.lookup_insert_cases hr
      · have hnew : db'.runs.lookup db.nextId =
            some (RunManifestService.replayRun s userId source.run) := by
          rw [hruns]
          exact AList.lookup_insert _
        exact .inr ⟨hi'.log.fresh _ _ hnew, hknown⟩
      · exact .inl hold

/-- The records of an erased project go with it. -/
theorem purge_remembers {org projectId : Uuid} {cutoff : Instant} {b : Bool} (h : db.Recorded)
    (hl : db.Later db') (hret : Returns (ProjectDeletion.purge org projectId cutoff) db b db') :
    db.Remembers db' ∧ db'.Recorded := by
  have hpurge : Changes { erases := true } db db' ∧ _ := ProjectDeletion.purge_changes rfl hret
  obtain ⟨-, ⟨-, rfl⟩ | ⟨-, herased⟩⟩ := hpurge
  · exact h.same hl ⟨rfl, rfl⟩
  · obtain ⟨usages, heads, events, rfl⟩ := herased.rows
    have hgone {org' projectId' : Uuid} (hp : (org' == org && projectId' == projectId) = true) :
        (db.projects.erase projectId).lookup projectId' = none := by
      rw [Bool.and_eq_true, beq_iff_eq, beq_iff_eq] at hp
      rw [hp.2]
      exact AList.lookup_erase _ _
    refine ⟨⟨hl, .erase .refl fun _ _ => hgone, .erase .refl fun _ _ => hgone⟩,
      h.step hl (fun id f hf => .inl ?_) fun id r hr => .inl ?_⟩
    · exact (Table.lookup_deleteWhere.mp hf).1
    · exact (Table.lookup_deleteWhere.mp hr).1

/-- **One transaction.** -/
theorem Action.remembers {β : Type} {w : World} {action : Action β} {b : β} (hi : w.Inv dep)
    (hrec : w.db.Recorded) (howes : action.Owes dep w) (h : Returns (action.body dep) w.db b db) :
    w.db.Remembers db ∧ db.Recorded := by
  obtain ⟨hi', hl⟩ := action.keeps hi howes h
  have hl := hl.db
  have hsame (hkeeps : Keeps (Records w.db.runExecutionFacts w.db.runReplays) (action.body dep)) :
      w.db.Remembers db ∧ db.Recorded := hrec.same hl (hkeeps _ _ _ ⟨rfl, rfl⟩ h)
  cases action with
  | recordExecution reference facts inputs => exact recordExecution_remembers hi.db hrec hl h
  | finalize => exact finalizeManifest_remembers hi.db hi.storage.keyed hrec hl h
  | completeReplay => exact completeReplay_remembers hrec hl h
  | replay => exact insertReplay_remembers hi.db hrec hl hi.lifecycle hi'.db h
  | purgeProject => exact purge_remembers hrec hl h
  | submit => exact hsame (JobControlPlane.insertSubmission_keeps _ _ _)
  | cancel => exact hsame (JobControlPlane.commitCancellation_keeps _ _ _ _ _)
  | readFor => exact hsame (DurableRunStore.readRun_keeps _)
  | transition => exact hsame (DurableRunStore.commitTransition_keeps _ _ _ _)
  | progress => exact hsame (DurableRunStore.commitProgress_keeps _ _ _)
  | adopt => exact hsame (DurableRunStore.commitAdoptedResult_keeps _ _ _ _)
  | expire => exact hsame (QuotaManager.expireReservation_keeps _ _ _ _ _)
  | replacePolicy => exact hsame (replacePolicy_keeps _ _ _ _ _)
  | provision => exact hsame (ensurePlatformRows_keeps _)
  | upload => exact hsame (ArtifactService.insertUpload_keeps _ _ _ _ _ _)
  | tombstone => exact hsame (ArtifactService.tombstone_keeps _ _ _ _)
  | markPurged => exact hsame (ArtifactService.markPurged_keeps _ _ _ _)
  | createProject => exact hsame (ProjectWorkspace.createProject_keeps _ _ _)
  | createCorpus => exact hsame (ProjectWorkspace.createCorpus_keeps _ _ _ _ _ _)
  | createVersion => exact hsame (ProjectWorkspace.createVersion_keeps _ _ _ _ _ _ _)
  | requestDeletion => exact hsame (ProjectDeletion.request_keeps _ _ _ _ _)
  | claim => exact hsame (TransactionalOutbox.claimAll_keeps _ _ _ _)
  | markPublished => exact hsame (TransactionalOutbox.markPublished_keeps _ _ _)
  | releaseFailed => exact hsame (TransactionalOutbox.releaseFailed_keeps _ _ _)

end Actions

/-! ## Every run -/

/-- The invariants of the world, with what the records are about. -/
def World.Documented (dep : Deployment) (w : World) : Prop := w.Inv dep ∧ w.db.Recorded

theorem Op.remembers {β : Type} {w w' : World} {o : Op β} {b : β} (hw : w.Documented dep)
    (howes : o.Owes dep w) (h : Returns (o.exec dep) w b w') :
    w.db.Remembers w'.db ∧ w'.Documented dep := by
  have hi' := (Op.keeps hw.1 howes h).1
  cases o with
  | query q =>
    obtain ⟨-, rfl⟩ := query_returns h
    exact ⟨.refl _, hw⟩
  | write action =>
    obtain ⟨db, hret, rfl⟩ := transact_returns h
    obtain ⟨hremembers, hrec⟩ := action.remembers hw.1 hw.2 howes hret
    exact ⟨hremembers, hi', hrec⟩
  | request r =>
    have hdb := Request.db_eq h
    refine ⟨?_, hi', ?_⟩
    · rw [hdb]
      exact .refl _
    · rw [hdb]
      exact hw.2

theorem Tick.remembers {w : World} (t : Tick) (hw : w.Documented dep) :
    w.db.Remembers (t.apply w).db ∧ (t.apply w).Documented dep := by
  have hi' := (Tick.keeps t hw.1).1
  cases t <;> exact ⟨.refl _, hi', hw.2⟩

variable {cfg cfg' : ServiceConfig dep}

theorem run_remembers
    (h : Reachable (M := system dep (services dep)) free (World.initial memberships) cfg)
    (hrun : Relation.ReflTransGen (Step free) cfg cfg') :
    cfg.world.db.Remembers cfg'.world.db ∧ cfg.world.db.Recorded ∧ cfg'.world.Documented dep := by
  have hI : Respects ((base dep (services dep)).lawful free) (World.Documented dep) :=
    ⟨fun hw hG hret => (Op.remembers hw hG.2.2 hret).2, fun hw => (Tick.remembers _ hw).2⟩
  have hR : Evolves ((base dep (services dep)).lawful free) (World.Documented dep)
      fun w w' => w.db.Remembers w'.db :=
    ⟨fun _ => .refl _, fun h h' => h.trans h', fun hw hG hret => (Op.remembers hw hG.2.2 hret).1,
      fun hw => (Tick.remembers _ hw).1⟩
  have hstart : (World.initial memberships).Documented dep :=
    ⟨World.inv_initial dep memberships, Db.recorded_initial memberships⟩
  have hnow := hI.reachable (lawful_reachable h) hstart
  exact ⟨hR.steps hI (lawful_run h hrun) hnow, hnow.2, hI.steps (lawful_run h hrun) hnow⟩

/-- **Records are written once.** From any state of any run on, whatever happens: while its
project exists, the record of an execution is there with the same facts and inputs, a manifest
once linked stays the linked one and is there, a manifest of the run, and recording the execution
again changes nothing and succeeds only with the same facts. -/
theorem execution_recorded_once
    (h : Reachable (M := system dep (services dep)) free (World.initial memberships) cfg)
    (hrun : Relation.ReflTransGen (Step free) cfg cfg') {runId : Uuid} {f : RunExecutionFact}
    (hf : cfg.world.db.runExecutionFacts.lookup runId = some f)
    (hproject : cfg'.world.db.projects.lookup f.projectId ≠ none) :
    ∃ f', cfg'.world.db.runExecutionFacts.lookup runId = some f' ∧ f.Later f' ∧
      (∀ artifactId, f'.manifestArtifactId = some artifactId → ∃ sha256,
        f'.manifestSha256 = some sha256 ∧
          cfg'.world.db.IsManifest artifactId f.projectId runId sha256) ∧
      ∀ (reference : RunWorkflowReference) facts inputs b db, reference.runId = runId →
        Returns (RunManifestService.recordExecution reference facts inputs) cfg'.world.db b db →
          b = false ∧ db = cfg'.world.db ∧ facts = f.facts ∧ inputs = f.inputDigests := by
  obtain ⟨hremembers, hrec, -, hrec'⟩ := run_remembers h hrun
  obtain ⟨f', hf', hlater⟩ | hgone := hremembers.facts _ _ hf (hrec.facts _ _ hf).project
  · refine ⟨f', hf', hlater, fun artifactId hlink => ?_, fun reference facts inputs b db hid hret => ?_⟩
    · have hsame : f'.projectId = f.projectId := by rw [hlater.same]
      obtain ⟨-, sha256, hsha, hmanifest | hgone⟩ := (hrec'.facts _ _ hf').manifest hlink
      · exact ⟨sha256, hsha, hsame ▸ hmanifest⟩
      · exact absurd (hsame ▸ hgone) hproject
    · subst hid
      obtain ⟨-, hnone, -⟩ | ⟨rfl, rfl, existing, hexisting, rfl, -, rfl⟩ :=
        RunManifestService.recordExecution_returns hret
      · rw [hf'] at hnone
        cases hnone
      · rw [hf'] at hexisting
        cases hexisting
        rw [hlater.same]
        exact ⟨rfl, rfl, rfl, rfl⟩
  · exact absurd hgone hproject

def smallFacts : TrustedExecutionFacts := ⟨8, "1", "1", [], .exact⟩

def smallManifest : RunManifest := ⟨9, 100, 0, 1, .exact⟩

/-- Call `i` starts a run and the next one records its execution. -/
def smallExecute (i : Nat) (reference : RunWorkflowReference) : List (Move Small) :=
  .start (ServiceCall.beginExecution reference) :: acts Small i 8 ++
    .start (ServiceCall.recordExecution reference smallFacts []) :: acts Small (i + 1) 1

/-- Call `i` adopts a result and the next one finalizes the manifest. -/
def smallConclude (i : Nat) (reference : RunWorkflowReference) (expected : Option RunManifest) :
    List (Move Small) :=
  .start (ServiceCall.commitAdoptedResult reference
    { smallAdopted with storageKey := artifactStorageKey 1 0 (some reference.runId) .runResult 9 }) ::
      acts Small i 3 ++
    .start (ServiceCall.finalize reference ⟨smallManifest, expected, []⟩) :: acts Small (i + 1) 5

def recordedSubmission : List (Move Small) := smallSubmission ++ smallExecute 3 smallReference

def smallFinish : List (Move Small) := smallConclude 5 smallReference none

/-- Before the schedule a fact of run 1 is there; after it, the fact has its manifest. -/
def finalizesFact (cfg : Config Small) : Bool :=
  (run cfg smallFinish).any fun cfg' =>
  (cfg.world.db.runExecutionFacts.lookup 1).any fun f =>
    (cfg'.world.db.runExecutionFacts.lookup 1).any fun f' =>
      f'.manifestArtifactId == some 5 && (cfg'.world.db.projects.lookup f.projectId).isSome

def finalizedFact : Sampled (smallRun recordedSubmission) finalizesFact := .of (by decide +kernel)

theorem execution_recorded_once_finalized :
    ∃ cfg cfg', smallRun recordedSubmission = some cfg ∧ run cfg smallFinish = some cfg' ∧
      ∃ f f', cfg.world.db.runExecutionFacts.lookup 1 = some f ∧
        cfg'.world.db.runExecutionFacts.lookup 1 = some f' ∧
        f.Later f' ∧ f'.manifestArtifactId = some 5 ∧
        ∃ sha256, cfg'.world.db.IsManifest 5 f.projectId 1 sha256 := by
  obtain ⟨cfg', hcfg', hfinal⟩ := (Option.any_eq_true _ _).mp finalizedFact.checked
  obtain ⟨f, hf, hfinal⟩ := (Option.any_eq_true _ _).mp hfinal
  obtain ⟨f', hf', hfinal⟩ := (Option.any_eq_true _ _).mp hfinal
  simp only [Bool.and_eq_true, beq_iff_eq] at hfinal
  obtain ⟨hlink, hproject⟩ := hfinal
  obtain ⟨g, hg, hlater, hlinked, -⟩ := execution_recorded_once (smallRun_reachable finalizedFact.run)
    (run_steps hcfg') hf (Option.isSome_iff_ne_none.mp hproject)
  rw [hf'] at hg
  cases hg
  obtain ⟨sha256, -, hmanifest⟩ := hlinked 5 hlink
  exact ⟨finalizedFact.cfg, cfg', finalizedFact.run, hcfg', f, f', hf, hf', hlater, hlink, sha256,
    hmanifest⟩

/-- **So is the lineage of a replay.** -/
theorem replay_lineage_fixed
    (h : Reachable (M := system dep (services dep)) free (World.initial memberships) cfg)
    (hrun : Relation.ReflTransGen (Step free) cfg cfg') {runId : Uuid} {r : RunReplay}
    (hr : cfg.world.db.runReplays.lookup runId = some r)
    (hproject : cfg'.world.db.projects.lookup r.projectId ≠ none) :
    ∃ r', cfg'.world.db.runReplays.lookup runId = some r' ∧ r.Later r' := by
  obtain ⟨hremembers, hrec, -⟩ := run_remembers h hrun
  obtain hlater | hgone := hremembers.replays _ _ hr (hrec.replays _ _ hr).2
  · exact hlater
  · exact absurd hgone hproject

/-- Call 7 replays the finalized run, as run 6. -/
def smallReplay : List (Move Small) :=
  recordedSubmission ++ smallFinish ++
    .start (ServiceCall.submitReplay ⟨"owner", 1, none⟩ 0 1 "again" smallManifest) :: acts Small 7 6

/-- The replay is executed by calls 8 to 11. -/
def smallReplayed : List (Move Small) :=
  smallExecute 8 { smallReference with runId := 6 } ++
    smallConclude 10 { smallReference with runId := 6 } (some smallManifest)

/-- Before the schedule replay 6 has no observed manifest; after it, it has. -/
def observesReplay (cfg : Config Small) : Bool :=
  (run cfg smallReplayed).any fun cfg' =>
  (cfg.world.db.runReplays.lookup 6).any fun r =>
    (cfg'.world.db.runReplays.lookup 6).any fun r' =>
      r.observedManifestArtifactId == none && r'.observedManifestArtifactId == some 10 &&
        (cfg'.world.db.projects.lookup r.projectId).isSome

def observedReplay : Sampled (smallRun smallReplay) observesReplay := .of (by decide +kernel)

theorem replay_lineage_fixed_observed :
    ∃ cfg cfg', smallRun smallReplay = some cfg ∧ run cfg smallReplayed = some cfg' ∧
      ∃ r r', cfg.world.db.runReplays.lookup 6 = some r ∧
        cfg'.world.db.runReplays.lookup 6 = some r' ∧ r.Later r' ∧
        r.observedManifestArtifactId = none ∧ r'.observedManifestArtifactId = some 10 := by
  obtain ⟨cfg', hcfg', hlast⟩ := (Option.any_eq_true _ _).mp observedReplay.checked
  obtain ⟨r, hr, hlast⟩ := (Option.any_eq_true _ _).mp hlast
  obtain ⟨r', hr', hlast⟩ := (Option.any_eq_true _ _).mp hlast
  simp only [Bool.and_eq_true, beq_iff_eq] at hlast
  obtain ⟨⟨hbefore, hafter⟩, hproject⟩ := hlast
  obtain ⟨replay, hreplay, hlater⟩ := replay_lineage_fixed (smallRun_reachable observedReplay.run)
    (run_steps hcfg') hr (Option.isSome_iff_ne_none.mp hproject)
  rw [hr'] at hreplay
  cases hreplay
  exact ⟨observedReplay.cfg, cfg', observedReplay.run, hcfg', r, r', hr, hr', hlater,
    hbefore, hafter⟩

end CorpusKit
