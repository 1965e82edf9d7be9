import CorpusKit.Persistence.Evolution
import CorpusKit.Persistence.Lifecycle

/-! # Artifact rows and what they promise

The storage key of a row is that of its place and content. As long as a project
waits for its deletion, no row that is not deleted is due before the project. -/

namespace CorpusKit

/-- The project is being deleted, and keeps what it has up to this time. -/
def Db.KeptUntil (db : Db) (projectId : Uuid) (retentionUntil : Instant) : Prop :=
  ∃ project requestedAt corpusSentences, db.projects.lookup projectId = some project ∧
    project.lifecycle = .deletionPending requestedAt retentionUntil corpusSentences

theorem Db.KeptUntil.deleting {db : Db} {projectId : Uuid} {retentionUntil : Instant}
    (h : db.KeptUntil projectId retentionUntil) : db.Deleting projectId := by
  obtain ⟨project, requestedAt, n, hproject, hlifecycle⟩ := h
  exact ⟨project, hproject, by rw [hlifecycle]; nofun⟩

structure Db.Storage (db : Db) : Prop where
  keyed : ∀ {id a}, db.artifacts.lookup id = some a → a.Keyed
  window : ∀ {id a retentionUntil}, db.artifacts.lookup id = some a → a.state ≠ .deleted →
    db.KeptUntil a.projectId retentionUntil → retentionUntil ≤ a.retentionUntil

theorem Db.storage_initial (memberships : List Membership) :
    (Db.initial memberships).Storage where
  keyed h := (Table.not_mem_empty h).elim
  window h := (Table.not_mem_empty h).elim

theorem Artifact.SameAs.keyed {a a' : Artifact} (h : a'.SameAs a) (hkeyed : a.Keyed) : a'.Keyed := by
  unfold Keyed at hkeyed ⊢
  rw [h.storageKey, h.organizationId, h.projectId, h.runId, h.kind, h.sha256]
  exact hkeyed

variable {db db' : Db}

/-- Rows only move on, and no project is newly deleted. -/
theorem Db.Storage.retain (h : db.Storage)
    (hrows : ∀ {id a'}, db'.artifacts.lookup id = some a' →
      ∃ a, db.artifacts.lookup id = some a ∧ a.Later a')
    (hkept : ∀ {projectId retentionUntil}, db'.KeptUntil projectId retentionUntil →
      db.KeptUntil projectId retentionUntil) : db'.Storage where
  keyed ha' := by
    obtain ⟨a, ha, hlater⟩ := hrows ha'
    exact hlater.same.keyed (h.keyed ha)
  window ha' hlive hpending := by
    obtain ⟨a, ha, hlater⟩ := hrows ha'
    have hdead := mt hlater.gone hlive
    exact (h.window ha hdead (hlater.same.projectId ▸ hkept hpending)).trans hlater.retention

/-- Neither the artifacts nor the projects are touched. -/
theorem Db.Storage.same (h : db.Storage) (hartifacts : db'.artifacts = db.artifacts)
    (hprojects : db'.projects = db.projects) : db'.Storage := by
  refine h.retain (fun ha' => ⟨_, hartifacts ▸ ha', .refl _⟩) fun hkept => ?_
  unfold KeptUntil at hkept ⊢
  rwa [hprojects] at hkept

/-- One row moves on. -/
theorem Db.Storage.write (h : db.Storage) {id : Uuid} {a a' : Artifact}
    (ha : db.artifacts.lookup id = some a) (hlater : a.Later a')
    (hartifacts : db'.artifacts = db.artifacts.insert id a')
    (hprojects : db'.projects = db.projects) : db'.Storage := by
  refine h.retain (fun hb => ?_) fun hkept => ?_
  · rw [hartifacts] at hb
    obtain ⟨rfl, rfl⟩ | ⟨-, hold⟩ := Table.lookup_insert_cases hb
    · exact ⟨a, ha, hlater⟩
    · exact ⟨_, hold, .refl _⟩
  · unfold KeptUntil at hkept ⊢
    rwa [hprojects] at hkept

/-- A row enters a project that is not being deleted. -/
theorem Db.Storage.enter (h : db.Storage) {id : Uuid} {a : Artifact} (hkeyed : a.Keyed)
    (hlive : ¬ db.Deleting a.projectId)
    (hartifacts : db'.artifacts = db.artifacts.insert id a)
    (hprojects : db'.projects = db.projects) : db'.Storage := by
  have hkept : ∀ {projectId retentionUntil}, db'.KeptUntil projectId retentionUntil →
      db.KeptUntil projectId retentionUntil := by
    intro projectId retentionUntil hpending
    unfold KeptUntil at hpending ⊢
    rwa [hprojects] at hpending
  refine ⟨fun hb => ?_, fun hb hstate hpending => ?_⟩
  · rw [hartifacts] at hb
    obtain ⟨-, rfl⟩ | ⟨-, hold⟩ := Table.lookup_insert_cases hb
    · exact hkeyed
    · exact h.keyed hold
  · rw [hartifacts] at hb
    obtain ⟨-, rfl⟩ | ⟨-, hold⟩ := Table.lookup_insert_cases hb
    · exact absurd (hkept hpending).deleting hlive
    · exact h.window hold hstate (hkept hpending)

/-- A project that starts to be deleted extends the retention of all it has. -/
theorem Db.Storage.schedule (h : db.Storage) (hl : db.Lifecycle) {org projectId : Uuid}
    {project : Project} {requestedAt retentionUntil : Instant} {n : Nat}
    (hproject : db.projects.lookup projectId = some project)
    (horg : project.organizationId = org) :
    ({ db with
      artifacts := db.artifacts.mapRows fun _ artifact =>
        ProjectDeletion.scheduleArtifact org projectId requestedAt retentionUntil artifact
      projects := db.projects.insert projectId
        { project with lifecycle := .deletionPending requestedAt retentionUntil n } } : Db).Storage := by
  refine ⟨fun {id a'} ha' => ?_, fun {id a' until'} ha' hstate hpending => ?_⟩
  · rw [Table.lookup_mapRows, Option.map_eq_some_iff] at ha'
    obtain ⟨a, ha, rfl⟩ := ha'
    exact (scheduleArtifact_same _ _ _ _ a).keyed (h.keyed ha)
  · rw [Table.lookup_mapRows, Option.map_eq_some_iff] at ha'
    obtain ⟨a, ha, rfl⟩ := ha'
    have hlater := scheduleArtifact_later org projectId requestedAt retentionUntil a
    obtain ⟨p, at', m, hp, hlifecycle⟩ := hpending
    rw [hlater.same.projectId] at hp
    obtain ⟨hpid, rfl⟩ | ⟨-, hold⟩ := Table.lookup_insert_cases hp
    · -- the row is one of the project's: its retention is now at least the project's
      cases hlifecycle
      have hown : a.organizationId = org := by
        obtain ⟨q, hq, ho⟩ := hl.artifacts ha
        rw [hpid, hproject] at hq
        cases hq
        exact ho.symm.trans horg
      have hdead : a.state ≠ .deleted := mt hlater.gone hstate
      have hin : (ProjectDeletion.isProjectArtifact org projectId a && a.state != .deleted) = true := by
        simp [ProjectDeletion.isProjectArtifact, hown, hpid, hdead]
      unfold ProjectDeletion.scheduleArtifact
      rw [if_pos hin]
      exact Nat.le_max_right _ _
    · exact (h.window ha (mt hlater.gone hstate) ⟨p, at', m, hold, hlifecycle⟩).trans hlater.retention

/-! ## Every change keeps it -/

variable {permit : Permit}

theorem Change.storage (hc : Change permit db db') (hl : db.Lifecycle) (h : db.Storage) :
    db'.Storage := by
  cases hc with
  | adopt time mediaType schemaId hrun hstate hask hfree horg hevent hres hown hactive hkept hsize
      hplace hkeyed =>
    refine h.enter hkeyed (fun hdeleting => ?_) rfl rfl
    rw [hplace.2.1] at hdeleting
    have hend := hl.quiet hrun hdeleting
    rw [hstate] at hend
    cases hend
  | store artifact hproject hkind hactive hsize hkeyed =>
    exact h.enter hkeyed (not_deleting_of_active hproject) rfl rfl
  | tombstone hpermit hrow hactive =>
    exact h.write hrow (Artifact.later_tombstoned hactive _) rfl rfl
  | discard hpermit hrow hdead husage => exact h.write hrow (Artifact.later_deleted _ _) rfl rfl
  | project project hactive =>
    refine h.retain (fun ha => ⟨_, ha, .refl _⟩) fun {projectId retentionUntil} hkept => ?_
    obtain ⟨p, requestedAt, n, hp, hlifecycle⟩ := hkept
    obtain ⟨-, rfl⟩ | ⟨-, hold⟩ := Table.lookup_insert_cases hp
    · rw [hactive] at hlifecycle
      cases hlifecycle
    · exact ⟨p, requestedAt, n, hold, hlifecycle⟩
  | schedule hpermit hproject horg hactive hquiet => exact h.schedule hl hproject horg
  | @erase org projectId project usages hpermit hproject horg hdead hready husages =>
    refine h.retain (fun ha => ⟨_, (Table.lookup_deleteWhere.mp ha).1, .refl _⟩)
      fun {other retentionUntil} hkept => ?_
    obtain ⟨p, requestedAt, n, hp, hlifecycle⟩ := hkept
    by_cases hpid : other = projectId
    · subst hpid
      have hnone : (db.projects.erase other).lookup other = some p := hp
      rw [AList.lookup_erase] at hnone
      cases hnone
    · exact ⟨p, requestedAt, n, (AList.lookup_erase_ne hpid).symm.trans hp, hlifecycle⟩
  | _ => exact h.same rfl rfl

theorem Changes.storage (hc : Changes permit db db') (hi : db.Inv) (hl : db.Lifecycle)
    (h : db.Storage) : db'.Storage := by
  induction hc with
  | refl => exact h
  | tail hs hstep ih => exact hstep.storage (Changes.lifecycle hs hi hl) ih

end CorpusKit
