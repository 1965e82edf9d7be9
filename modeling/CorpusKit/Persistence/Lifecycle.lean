import CorpusKit.Persistence.Invariants

/-! # Rows and the lifecycle of their project

Runs, artifacts and corpora lie in a project of their own organization. A
project that is being deleted is at rest: its runs are terminal and none of its
artifacts is active. A result belongs to a run that succeeded. -/

namespace CorpusKit

/-- The project exists and is the organization's. -/
def Db.HasProject (db : Db) (org projectId : Uuid) : Prop :=
  ∃ project, db.projects.lookup projectId = some project ∧ project.organizationId = org

/-- A project that is being deleted. -/
def Db.Deleting (db : Db) (projectId : Uuid) : Prop :=
  ∃ project, db.projects.lookup projectId = some project ∧ project.lifecycle ≠ .active

/-- The run is known, and has succeeded if it still exists. -/
def Db.Succeeded (db : Db) (runId : Option Uuid) : Prop :=
  ∃ id, runId = some id ∧ id < db.nextId ∧
    ∀ run, db.runs.lookup id = some run → run.state = .succeeded

structure Db.Lifecycle (db : Db) : Prop where
  runs : ∀ {id run}, db.runs.lookup id = some run → db.HasProject run.organizationId run.projectId
  artifacts : ∀ {id a}, db.artifacts.lookup id = some a → db.HasProject a.organizationId a.projectId
  corpora : ∀ {id corpus}, db.corpora.lookup id = some corpus →
    db.HasProject corpus.organizationId corpus.projectId
  quiet : ∀ {id run}, db.runs.lookup id = some run → db.Deleting run.projectId →
    isTerminal run.state = true
  retired : ∀ {id a}, db.artifacts.lookup id = some a → db.Deleting a.projectId →
    a.state ≠ .active
  results : ∀ {id a}, db.artifacts.lookup id = some a → a.kind = .runResult → db.Succeeded a.runId

theorem Db.lifecycle_initial (memberships : List Membership) :
    (Db.initial memberships).Lifecycle where
  runs h := (Table.not_mem_empty h).elim
  artifacts h := (Table.not_mem_empty h).elim
  corpora h := (Table.not_mem_empty h).elim
  quiet h := (Table.not_mem_empty h).elim
  retired h := (Table.not_mem_empty h).elim
  results h := (Table.not_mem_empty h).elim

variable {db : Db}

/-! ## Active projects -/

theorem activeProject_eq {org projectId : Uuid} :
    db.activeProject org projectId = true ↔ ∃ project, db.projects.lookup projectId = some project ∧
      project.organizationId = org ∧ project.lifecycle = .active := by
  unfold Db.activeProject
  split
  · next project hproject =>
    simp only [Bool.and_eq_true, beq_iff_eq, hproject, Option.some.injEq, exists_eq_left']
  · next hnone => simp [hnone]

theorem hasProject_of_active {org projectId : Uuid}
    (h : db.activeProject org projectId = true) : db.HasProject org projectId := by
  obtain ⟨project, hproject, horg, -⟩ := activeProject_eq.mp h
  exact ⟨project, hproject, horg⟩

theorem not_deleting_of_active {org projectId : Uuid}
    (h : db.activeProject org projectId = true) : ¬ db.Deleting projectId := by
  obtain ⟨project, hproject, -, hactive⟩ := activeProject_eq.mp h
  rintro ⟨other, hother, hdead⟩
  rw [hproject] at hother
  cases hother
  exact hdead hactive

/-! ## Changes that leave the projects alone -/

/-- One run is written, in its project; what it ended or succeeded with stays. -/
theorem Db.Lifecycle.writeRun (h : db.Lifecycle) {runId : Uuid} {run : Run} (run' : Run)
    (hrun : db.runs.lookup runId = some run)
    (horg : run'.organizationId = run.organizationId) (hproject : run'.projectId = run.projectId)
    (hend : isTerminal run.state = true → isTerminal run'.state = true)
    (hsucceeded : run.state = .succeeded → run'.state = .succeeded) :
    ({ db with runs := db.runs.insert runId run' } : Db).Lifecycle :=
  { h with
    runs := fun hid => by
      obtain ⟨rfl, rfl⟩ | ⟨-, hold⟩ := Table.lookup_insert_cases hid
      · rw [horg, hproject]
        exact h.runs hrun
      · exact h.runs hold
    quiet := fun hid hdead => by
      obtain ⟨rfl, rfl⟩ | ⟨-, hold⟩ := Table.lookup_insert_cases hid
      · rw [hproject] at hdead
        exact hend (h.quiet hrun hdead)
      · exact h.quiet hold hdead
    results := fun ha hkind => by
      obtain ⟨owner, hown, hlt, hstate⟩ := h.results ha hkind
      refine ⟨owner, hown, hlt, fun r hr => ?_⟩
      obtain ⟨rfl, rfl⟩ | ⟨-, hold⟩ := Table.lookup_insert_cases hr
      · exact hsucceeded (hstate run hrun)
      · exact hstate r hold }

/-- A run that moves was neither terminal nor succeeded. -/
theorem Db.Lifecycle.moveRun (h : db.Lifecycle) {runId : Uuid} {run : Run} (run' : Run)
    (hrun : db.runs.lookup runId = some run) (hmove : Moves run.state run'.state)
    (horg : run'.organizationId = run.organizationId)
    (hproject : run'.projectId = run.projectId) :
    ({ db with runs := db.runs.insert runId run' } : Db).Lifecycle := by
  refine h.writeRun run' hrun horg hproject (fun hend => ?_) fun hsucceeded => ?_
  · rw [not_isTerminal_of_moves hmove] at hend
    cases hend
  · exact absurd hsucceeded (ne_succeeded_of_moves hmove)

/-- A row enters under a new identifier. -/
theorem Db.Lifecycle.storeArtifact (h : db.Lifecycle) (artifact : Artifact)
    (hproject : db.HasProject artifact.organizationId artifact.projectId)
    (hlive : ¬ db.Deleting artifact.projectId)
    (hresult : artifact.kind = .runResult → db.Succeeded artifact.runId) :
    ({ db with
      nextId := db.nextId + 1, artifacts := db.artifacts.insert db.nextId artifact } : Db).Lifecycle :=
  { h with
    artifacts := fun ha => by
      obtain ⟨-, rfl⟩ | ⟨-, hold⟩ := Table.lookup_insert_cases ha
      · exact hproject
      · exact h.artifacts hold
    retired := fun ha hdead => by
      obtain ⟨-, rfl⟩ | ⟨-, hold⟩ := Table.lookup_insert_cases ha
      · exact absurd hdead hlive
      · exact h.retired hold hdead
    results := fun {id a} ha hkind => by
      have hold : db.Succeeded a.runId := by
        obtain ⟨-, rfl⟩ | ⟨-, hold⟩ := Table.lookup_insert_cases ha
        · exact hresult hkind
        · exact h.results hold hkind
      obtain ⟨runId, hown, hlt, hstate⟩ := hold
      exact ⟨runId, hown, Nat.lt_succ_of_lt hlt, hstate⟩ }

/-- Rows that only retire. -/
theorem Db.Lifecycle.retire (h : db.Lifecycle) {artifacts' : Table Uuid Artifact}
    (hback : ∀ {id a'}, artifacts'.lookup id = some a' → ∃ a, db.artifacts.lookup id = some a ∧
      a'.SameAs a ∧ (a.state ≠ .active → a'.state ≠ .active)) :
    ({ db with artifacts := artifacts' } : Db).Lifecycle :=
  { h with
    artifacts := fun ha => by
      obtain ⟨a, hrow, hsame, -⟩ := hback ha
      rw [hsame.organizationId, hsame.projectId]
      exact h.artifacts hrow
    retired := fun ha hdead => by
      obtain ⟨a, hrow, hsame, hretired⟩ := hback ha
      rw [hsame.projectId] at hdead
      exact hretired (h.retired hrow hdead)
    results := fun ha hkind => by
      obtain ⟨a, hrow, hsame, -⟩ := hback ha
      rw [hsame.runId]
      exact h.results hrow (hsame.kind ▸ hkind) }

theorem Db.Lifecycle.retireOne (h : db.Lifecycle) {id : Uuid} {a : Artifact} (a' : Artifact)
    (hrow : db.artifacts.lookup id = some a) (hsame : a'.SameAs a) (hretired : a'.state ≠ .active) :
    ({ db with artifacts := db.artifacts.insert id a' } : Db).Lifecycle :=
  h.retire fun hb => by
    obtain ⟨rfl, rfl⟩ | ⟨-, hold⟩ := Table.lookup_insert_cases hb
    · exact ⟨a, hrow, hsame, fun _ => hretired⟩
    · exact ⟨_, hold, .refl _, fun hold => hold⟩

/-- The supply of identifiers moves on. -/
theorem Db.Lifecycle.advance (h : db.Lifecycle) {n : Uuid} (hn : db.nextId ≤ n) :
    ({ db with nextId := n } : Db).Lifecycle :=
  { h with
    results := fun ha hkind => by
      obtain ⟨runId, hown, hlt, hstate⟩ := h.results ha hkind
      exact ⟨runId, hown, lt_of_lt_of_le hlt hn, hstate⟩ }

theorem Db.Lifecycle.enterRun (h : db.Lifecycle) {run : Run}
    (hactive : db.activeProject run.organizationId run.projectId = true) :
    ({ db with runs := db.runs.insert db.nextId run } : Db).Lifecycle :=
  { h with
    runs := fun hid => by
      obtain ⟨-, rfl⟩ | ⟨-, hold⟩ := Table.lookup_insert_cases hid
      · exact hasProject_of_active hactive
      · exact h.runs hold
    quiet := fun hid hdead => by
      obtain ⟨-, rfl⟩ | ⟨-, hold⟩ := Table.lookup_insert_cases hid
      · exact absurd hdead (not_deleting_of_active hactive)
      · exact h.quiet hold hdead
    results := fun ha hkind => by
      obtain ⟨runId, hown, hlt, hstate⟩ := h.results ha hkind
      refine ⟨runId, hown, hlt, fun r hr => ?_⟩
      obtain ⟨rfl, -⟩ | ⟨-, hold⟩ := Table.lookup_insert_cases hr
      · exact absurd hlt (Nat.lt_irrefl _)
      · exact hstate r hold }

/-! ## Changes of projects -/

theorem Db.Lifecycle.enterProject (h : db.Lifecycle) (hprojects : Table.Below db.nextId db.projects)
    {project : Project} (hactive : project.lifecycle = .active) :
    ({ db with
      nextId := db.nextId + 1
      projects := db.projects.insert db.nextId project } : Db).Lifecycle := by
  have hkeep : ∀ {org projectId}, db.HasProject org projectId →
      ({ db with
        nextId := db.nextId + 1
        projects := db.projects.insert db.nextId project } : Db).HasProject org projectId := by
    rintro org projectId ⟨p, hp, horg⟩
    refine ⟨p, ?_, horg⟩
    show (db.projects.insert db.nextId project).lookup projectId = some p
    rw [AList.lookup_insert_ne (hprojects _ _ hp).ne]
    exact hp
  have hdead : ∀ {projectId}, ({ db with
      nextId := db.nextId + 1
      projects := db.projects.insert db.nextId project } : Db).Deleting projectId →
      db.Deleting projectId := by
    rintro projectId ⟨p, hp, hlifecycle⟩
    obtain ⟨-, rfl⟩ | ⟨-, hold⟩ := Table.lookup_insert_cases hp
    · exact absurd hactive hlifecycle
    · exact ⟨p, hold, hlifecycle⟩
  exact { h.advance (Nat.le_succ _) with
    runs := fun hid => hkeep (h.runs hid)
    artifacts := fun ha => hkeep (h.artifacts ha)
    corpora := fun hc => hkeep (h.corpora hc)
    quiet := fun hid hd => h.quiet hid (hdead hd)
    retired := fun ha hd => h.retired ha (hdead hd) }

open ProjectDeletion

/-- No run of a quiescent project can move. -/
theorem quiescent_terminal {org projectId : Uuid} (h : quiescent db org projectId = true)
    {id : Uuid} {run : Run} (hrun : db.runs.lookup id = some run)
    (hown : isProjectRun org projectId run = true) : isTerminal run.state = true := by
  unfold quiescent at h
  simp only [Bool.and_eq_true, List.all_eq_true] at h
  have hmember := h.1 (id, run) (Table.mem_rows.mpr hrun)
  simpa [hown] using hmember

theorem Db.Lifecycle.schedule (h : db.Lifecycle) {org projectId : Uuid} {project : Project}
    {requestedAt retentionUntil : Instant} {lifecycle : ProjectLifecycle}
    (hproject : db.projects.lookup projectId = some project)
    (horg : project.organizationId = org) (hquiet : quiescent db org projectId = true) :
    ({ db with
      artifacts := db.artifacts.mapRows fun _ artifact =>
        scheduleArtifact org projectId requestedAt retentionUntil artifact
      projects := db.projects.insert projectId { project with lifecycle } } : Db).Lifecycle := by
  let db' : Db := { db with
    artifacts := db.artifacts.mapRows fun _ artifact =>
      scheduleArtifact org projectId requestedAt retentionUntil artifact
    projects := db.projects.insert projectId { project with lifecycle } }
  have hkeep : ∀ {o pid}, db.HasProject o pid → db'.HasProject o pid := by
    rintro o pid ⟨p, hp, ho⟩
    by_cases hpid : pid = projectId
    · subst hpid
      rw [hproject] at hp
      cases hp
      exact ⟨_, AList.lookup_insert _, ho⟩
    · exact ⟨p, (AList.lookup_insert_ne hpid).trans hp, ho⟩
  have hdead : ∀ {pid}, db'.Deleting pid → pid = projectId ∨ db.Deleting pid := by
    rintro pid ⟨p, hp, hlifecycle⟩
    obtain ⟨rfl, -⟩ | ⟨-, hold⟩ := Table.lookup_insert_cases hp
    · exact .inl rfl
    · exact .inr ⟨p, hold, hlifecycle⟩
  have hhome : ∀ {o}, db.HasProject o projectId → o = org := by
    rintro o ⟨p, hp, ho⟩
    rw [hproject] at hp
    cases hp
    exact ho.symm.trans horg
  have hback : ∀ {id a'}, db'.artifacts.lookup id = some a' → ∃ a, db.artifacts.lookup id = some a ∧
      a' = scheduleArtifact org projectId requestedAt retentionUntil a := by
    intro id a' ha'
    rw [Table.lookup_mapRows, Option.map_eq_some_iff] at ha'
    obtain ⟨a, ha, rfl⟩ := ha'
    exact ⟨a, ha, rfl⟩
  have hretire : db.Lifecycle → ∀ {id a'}, db'.artifacts.lookup id = some a' →
      db'.Deleting a'.projectId → a'.state ≠ .active := by
    intro _ id a' ha' hdeleting
    obtain ⟨a, ha, rfl⟩ := hback ha'
    have hsame := scheduleArtifact_same org projectId requestedAt retentionUntil a
    rw [hsame.projectId] at hdeleting
    unfold scheduleArtifact
    split
    · nofun
    · next hout =>
      obtain hpid | hold := hdead hdeleting
      · have hown : isProjectArtifact org projectId a = true := by
          have ho := hhome (hpid ▸ h.artifacts ha)
          simp [isProjectArtifact, ho, hpid]
        intro hactive
        simp [hown, hactive] at hout
      · exact h.retired ha hold
  exact {
    runs := fun hid => hkeep (h.runs hid)
    artifacts := fun ha' => by
      obtain ⟨a, ha, rfl⟩ := hback ha'
      have hsame := scheduleArtifact_same org projectId requestedAt retentionUntil a
      rw [hsame.organizationId, hsame.projectId]
      exact hkeep (h.artifacts ha)
    corpora := fun hc => hkeep (h.corpora hc)
    quiet := fun {id run} hid hdeleting => by
      obtain hpid | hold := hdead hdeleting
      · have ho := hhome (hpid ▸ h.runs hid)
        exact quiescent_terminal hquiet hid (by simp [isProjectRun, ho, hpid])
      · exact h.quiet hid hold
    retired := hretire h
    results := fun ha' hkind => by
      obtain ⟨a, ha, rfl⟩ := hback ha'
      have hsame := scheduleArtifact_same org projectId requestedAt retentionUntil a
      rw [hsame.runId]
      exact h.results ha (hsame.kind ▸ hkind) }

/-- The rows of an erased project are gone, so no row lost its project. -/
theorem Db.Lifecycle.erase (h : db.Lifecycle) {org projectId : Uuid} {project : Project}
    {usages : Table Uuid QuotaUsage} (hproject : db.projects.lookup projectId = some project)
    (horg : project.organizationId = org)
    (hready : databasePreconditions db org projectId = true) :
    ({ eraseRows db org projectId with
      quotaUsages := usages, projects := db.projects.erase projectId } : Db).Lifecycle := by
  let db' : Db := { eraseRows db org projectId with
    quotaUsages := usages, projects := db.projects.erase projectId }
  have hhome : ∀ {o}, db.HasProject o projectId → o = org := by
    rintro o ⟨p, hp, ho⟩
    rw [hproject] at hp
    cases hp
    exact ho.symm.trans horg
  have hkeep : ∀ {o pid}, pid ≠ projectId → db.HasProject o pid → db'.HasProject o pid := by
    rintro o pid hpid ⟨p, hp, ho⟩
    exact ⟨p, (AList.lookup_erase_ne hpid).trans hp, ho⟩
  have hdead : ∀ {pid}, db'.Deleting pid → db.Deleting pid := by
    rintro pid ⟨p, hp, hlifecycle⟩
    by_cases hpid : pid = projectId
    · subst hpid
      have hnone : (db.projects.erase pid).lookup pid = some p := hp
      rw [AList.lookup_erase] at hnone
      cases hnone
    · exact ⟨p, (AList.lookup_erase_ne hpid).symm.trans hp, hlifecycle⟩
  exact {
    runs := fun {id run} hid => by
      obtain ⟨hrun, hkept⟩ := Table.lookup_deleteWhere.mp hid
      refine hkeep (fun hpid => ?_) (h.runs hrun)
      have ho := hhome (hpid ▸ h.runs hrun)
      simp [isProjectRun, ho, hpid] at hkept
    artifacts := fun {id a} ha => by
      obtain ⟨hrow, hkept⟩ := Table.lookup_deleteWhere.mp ha
      refine hkeep (fun hpid => ?_) (h.artifacts hrow)
      have ho := hhome (hpid ▸ h.artifacts hrow)
      have hown : isProjectArtifact org projectId a = true := by simp [isProjectArtifact, ho, hpid]
      -- the preconditions leave only deleted artifacts, and those are erased
      unfold databasePreconditions at hready
      simp only [Bool.and_eq_true, List.all_eq_true] at hready
      have hgone := hready.1 (id, a) (Table.mem_rows.mpr hrow)
      simp [hown] at hgone hkept
      exact hkept hgone
    corpora := fun {id corpus} hc => by
      obtain ⟨hcorpus, hkept⟩ := Table.lookup_deleteWhere.mp hc
      refine hkeep (fun hpid => ?_) (h.corpora hcorpus)
      have ho := hhome (hpid ▸ h.corpora hcorpus)
      simp [ho, hpid] at hkept
    quiet := fun hid hdeleting => h.quiet (Table.lookup_deleteWhere.mp hid).1 (hdead hdeleting)
    retired := fun ha hdeleting => h.retired (Table.lookup_deleteWhere.mp ha).1 (hdead hdeleting)
    results := fun ha hkind => by
      obtain ⟨runId, hown, hlt, hstate⟩ := h.results (Table.lookup_deleteWhere.mp ha).1 hkind
      exact ⟨runId, hown, hlt, fun run hrun => hstate run (Table.lookup_deleteWhere.mp hrun).1⟩ }

/-! ## Every change keeps it -/

variable {permit : Permit}

theorem Change.lifecycle {db db' : Db} (hc : Change permit db db') (hi : db.Inv)
    (h : db.Lifecycle) : db'.Lifecycle := by
  cases hc with
  | evidence event hhead hfree hplain => exact { h with runs := h.runs }
  | id => exact h.advance (Nat.le_succ _)
  | @move runId run target summary code askedAt event hrun hmove =>
    let run' := run.moved target summary code askedAt
    exact { h.moveRun run' hrun hmove rfl rfl with corpora := h.corpora }
  | @finish runId rid run target summary code askedAt event reservation usage ending time hrun
      hmove =>
    let run' := run.moved target summary code askedAt
    exact { h.moveRun run' hrun hmove rfl rfl with corpora := h.corpora }
  | @adopt runId rid run artifact event reservation usage policy head adopted succeeded time
      mediaType schemaId hrun hstate hask hfree horg hevent hres hown hactive hkept hsize hplace =>
    let summary : ResultSummary :=
      .artifact db.nextId mediaType schemaId artifact.sha256 artifact.sizeBytes
    let run' := run.moved .succeeded (some summary) none run.cancellationRequestedAt
    have hmove : Moves run.state .succeeded := hstate ▸ (by decide : Moves .running .succeeded)
    have hmoved := h.moveRun run' hrun hmove rfl rfl
    refine { hmoved.storeArtifact artifact ?_ ?_ fun _ => ?_ with
      corpora := h.corpora }
    · rw [hplace.1, hplace.2.1]
      exact h.runs hrun
    · rw [hplace.2.1]
      intro hdeleting
      have hend := h.quiet hrun hdeleting
      rw [hstate] at hend
      cases hend
    · refine ⟨runId, hplace.2.2.1, hi.log.fresh _ _ hrun, fun r hr => ?_⟩
      have hsame : (db.runs.insert runId run').lookup runId = some r := hr
      rw [AList.lookup_insert] at hsame
      cases hsame
      rfl
  | @note runId run event hrun hstate =>
    let run' : Run := { run with eventSequence := run.eventSequence + 1 }
    exact { h.writeRun run' hrun rfl rfl (fun hend => hend) fun hdone => hdone with corpora := h.corpora }
  | @settle runId run askedAt hrun hstate =>
    let run' : Run := { run with
      cancellationRequestedAt := some askedAt, resultSummary := none, failureCode := none }
    exact h.writeRun run' hrun rfl rfl (fun hend => hend) fun hdone => hdone
  | renew hres => exact { h with runs := h.runs }
  | submit hpermit hproject =>
    exact { (h.enterRun hproject).advance (Nat.le_add_right _ 3) with corpora := h.corpora }
  | lineage replay hid hfree => exact { h with runs := h.runs }
  | observe manifest hreplay => exact { h with runs := h.runs }
  | record facts hfree => exact { h with runs := h.runs }
  | manifest artifactId sha256 hfacts => exact { h with runs := h.runs }
  | store artifact hproject hkind =>
    exact { h.storeArtifact artifact (hasProject_of_active hproject) (not_deleting_of_active hproject)
      (fun hresult => absurd hresult hkind) with corpora := h.corpora }
  | @tombstone id artifact time hpermit hrow hactive =>
    let artifact' : Artifact := { artifact with state := .tombstoned, tombstonedAt := some time }
    exact h.retireOne artifact' hrow (by constructor <;> rfl) (by simp [artifact'])
  | @discard id artifact time usage hpermit hrow hdead husage =>
    let artifact' : Artifact := { artifact with state := .deleted, deletedAt := some time }
    exact { h.retireOne artifact' hrow (by constructor <;> rfl) (by simp [artifact']) with
      corpora := h.corpora }
  | publish publication hfree => exact { h.advance (Nat.le_succ _) with corpora := h.corpora }
  | intent message hrun => exact { h.advance (Nat.le_succ _) with corpora := h.corpora }
  | claim workerId now expired hrow hclaim => exact { h with runs := h.runs }
  | acknowledge now hrow hclaimed => exact { h with runs := h.runs }
  | release availableAt hrow hclaimed => exact { h with runs := h.runs }
  | project project hactive => exact h.enterProject hi.projects hactive
  | corpus corpus hproject =>
    refine { h.advance (Nat.le_succ _) with corpora := fun {id c} hc => ?_ }
    obtain ⟨-, rfl⟩ | ⟨-, hold⟩ := Table.lookup_insert_cases hc
    · exact hasProject_of_active hproject
    · exact h.corpora hold
  | version version texts => exact { h.advance (Nat.le_succ _) with corpora := h.corpora }
  | schedule hpermit hproject horg hactive hquiet => exact h.schedule hproject horg hquiet
  | erase hpermit hproject horg hdead hready husages => exact h.erase hproject horg hready
  | policy hreplaces hfree hpolicy husage hbounds hruns => exact { h with runs := h.runs }
  | provision org => exact { h with runs := h.runs }

theorem Changes.lifecycle {db db' : Db} (hc : Changes permit db db') (hi : db.Inv)
    (h : db.Lifecycle) : db'.Lifecycle := by
  induction hc with
  | refl => exact h
  | tail hs hstep ih => exact hstep.lifecycle (Changes.inv hs hi) ih

end CorpusKit
