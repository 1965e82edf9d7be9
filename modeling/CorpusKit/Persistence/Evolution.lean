import CorpusKit.Persistence.Invariants

/-! # What the rows become

How the database may move, as a preorder: identifiers are drawn once, the
identifying columns of a row never change, a run only follows the declared
transitions, a cancellation is never taken back, an artifact or a project never
comes back from deletion, and corpus versions stay as they were written. Every
change of a transaction moves the database this way. -/

namespace CorpusKit

/-- The later row of a run: its identity stays and its state only moves on. -/
structure Run.Later (run run' : Run) : Prop where
  identity : run' = { run with
    state := run'.state, eventSequence := run'.eventSequence, resultSummary := run'.resultSummary
    failureCode := run'.failureCode, cancellationRequestedAt := run'.cancellationRequestedAt }
  moves : Relation.ReflTransGen Moves run.state run'.state
  sequence : run.eventSequence ≤ run'.eventSequence
  final : isTerminal run.state = true → run'.eventSequence = run.eventSequence
  asked : run.cancellationRequestedAt ≠ none → run'.cancellationRequestedAt ≠ none
  cancelled : run.state = .cancelling ∨ run.state = .cancelled →
    run'.state = .cancelling ∨ run'.state = .cancelled
  succeeded : run.state = .succeeded → run' = run

theorem Run.Later.refl (run : Run) : run.Later run :=
  ⟨rfl, .refl, Nat.le_refl _, fun _ => rfl, id, id, fun _ => rfl⟩

/-- A terminal state is final. -/
theorem moves_final {s t : RunState} (h : Relation.ReflTransGen Moves s t)
    (hs : isTerminal s = true) : t = s := by
  induction h with
  | refl => rfl
  | tail _ hmove ih =>
    subst ih
    rw [not_isTerminal_of_moves hmove] at hs
    cases hs

theorem Run.Later.state {run run' : Run} (h : run.Later run') (hend : isTerminal run.state = true) :
    run'.state = run.state := moves_final h.moves hend

theorem Run.Later.trans {a b c : Run} (h : a.Later b) (h' : b.Later c) : a.Later c where
  identity := by rw [h'.identity, h.identity]
  moves := h.moves.trans h'.moves
  sequence := h.sequence.trans h'.sequence
  final hend := by
    have hb : isTerminal b.state = true := by rw [h.state hend]; exact hend
    rw [h'.final hb, h.final hend]
  asked := h'.asked ∘ h.asked
  cancelled := h'.cancelled ∘ h.cancelled
  succeeded hstate := by
    have hsame := h.succeeded hstate
    exact (h'.succeeded (hsame ▸ hstate)).trans hsame

theorem Run.Later.organizationId {run run' : Run} (h : run.Later run') :
    run'.organizationId = run.organizationId := by rw [h.identity]

theorem Run.Later.projectId {run run' : Run} (h : run.Later run') :
    run'.projectId = run.projectId := by rw [h.identity]

theorem Run.Later.specSha256 {run run' : Run} (h : run.Later run') :
    run'.specSha256 = run.specSha256 := by rw [h.identity]

/-- A state change along a declared transition. -/
theorem Run.later_moved {run : Run} {target : RunState} {summary code askedAt}
    (hmove : Moves run.state target) (hask : run.cancellationRequestedAt ≠ none → askedAt ≠ none)
    (hcancel : run.state = .cancelling → target = .cancelled) :
    run.Later (run.moved target summary code askedAt) where
  identity := rfl
  moves := .single hmove
  sequence := Nat.le_succ _
  final hend := by rw [not_isTerminal_of_moves hmove] at hend; cases hend
  asked := hask
  cancelled hstate := by
    obtain hstate | hstate := hstate
    · exact .inr (hcancel hstate)
    · rw [hstate] at hmove
      cases hmove
  succeeded hstate := absurd hstate (ne_succeeded_of_moves hmove)

/-- The later row of an artifact. -/
structure Artifact.Later (a a' : Artifact) : Prop where
  same : a'.SameAs a
  retired : a.state ≠ .active → a'.state ≠ .active
  gone : a.state = .deleted → a'.state = .deleted
  retention : a.retentionUntil ≤ a'.retentionUntil

theorem Artifact.Later.refl (a : Artifact) : a.Later a := ⟨.refl a, id, id, Nat.le_refl _⟩

theorem Artifact.Later.trans {a b c : Artifact} (h : a.Later b) (h' : b.Later c) : a.Later c :=
  ⟨h'.same.trans h.same, h'.retired ∘ h.retired, h'.gone ∘ h.gone, h.retention.trans h'.retention⟩

/-- The later row of a project: a deletion is never taken back. -/
structure Project.Later (p p' : Project) : Prop where
  organizationId : p'.organizationId = p.organizationId
  pending : p.lifecycle ≠ .active → p'.lifecycle = p.lifecycle

theorem Project.Later.refl (p : Project) : p.Later p := ⟨rfl, fun _ => rfl⟩

theorem Project.Later.trans {a b c : Project} (h : a.Later b) (h' : b.Later c) : a.Later c :=
  ⟨h'.organizationId.trans h.organizationId, fun hdead => by
    have hsame := h.pending hdead
    exact (h'.pending (hsame ▸ hdead)).trans hsame⟩

/-- The later row of a reservation. -/
structure QuotaReservation.Later (r r' : QuotaReservation) : Prop where
  organizationId : r'.organizationId = r.organizationId
  runId : r'.runId = r.runId

theorem QuotaReservation.Later.refl (r : QuotaReservation) : r.Later r := ⟨rfl, rfl⟩

theorem QuotaReservation.Later.trans {a b c : QuotaReservation} (h : a.Later b) (h' : b.Later c) :
    a.Later c := ⟨h'.organizationId.trans h.organizationId, h'.runId.trans h.runId⟩

structure Db.Later (db db' : Db) : Prop where
  next : db.nextId ≤ db'.nextId
  runs : Table.Kept db.nextId Run.Later db.runs db'.runs
  reservations : Table.Kept db.nextId QuotaReservation.Later db.quotaReservations
    db'.quotaReservations
  artifacts : Table.Kept db.nextId Artifact.Later db.artifacts db'.artifacts
  projects : Table.Kept db.nextId Project.Later db.projects db'.projects
  corpora : Table.Kept db.nextId (· = ·) db.corpora db'.corpora
  versions : Table.Kept db.nextId (· = ·) db.corpusVersions db'.corpusVersions
  /-- The rows of artifacts only go with their project. -/
  stay : ∀ {id a}, db.artifacts.lookup id = some a → id < db.nextId → a.projectId < db.nextId →
    (∃ a', db'.artifacts.lookup id = some a') ∨ db'.projects.lookup a.projectId = none
  /-- The events of a run stay as long as the run. -/
  events : ∀ {id n e run'}, db.runEvents.lookup (id, n) = some e → id < db.nextId →
    db'.runs.lookup id = some run' → db'.runEvents.lookup (id, n) = some e
  /-- So do the publications of a project. -/
  published : ∀ {id p}, db.datgIndexPublications.lookup id = some p → id < db.nextId →
    p.projectId < db.nextId →
    db'.datgIndexPublications.lookup id = some p ∨ db'.projects.lookup p.projectId = none

theorem Db.Later.refl (db : Db) : db.Later db where
  next := Nat.le_refl _
  runs := .refl Run.Later.refl
  reservations := .refl QuotaReservation.Later.refl
  artifacts := .refl Artifact.Later.refl
  projects := .refl Project.Later.refl
  corpora := .refl Eq.refl
  versions := .refl Eq.refl
  stay h _ _ := .inl ⟨_, h⟩
  events h _ _ := h
  published h _ _ := .inl h

theorem Db.Later.trans {a b c : Db} (h : a.Later b) (h' : b.Later c) : a.Later c where
  next := h.next.trans h'.next
  runs := h.runs.trans h'.runs h.next .trans
  reservations := h.reservations.trans h'.reservations h.next .trans
  artifacts := h.artifacts.trans h'.artifacts h.next .trans
  projects := h.projects.trans h'.projects h.next .trans
  corpora := h.corpora.trans h'.corpora h.next .trans
  versions := h.versions.trans h'.versions h.next .trans
  stay {id a} ha hid hproject := by
    obtain ⟨mid, hmid⟩ | hgone := h.stay ha hid hproject
    · obtain ⟨old, hold, hlater⟩ := h.artifacts id mid hmid hid
      rw [ha] at hold
      cases hold
      rw [← hlater.same.projectId]
      exact h'.stay hmid (Nat.lt_of_lt_of_le hid h.next)
        (hlater.same.projectId ▸ Nat.lt_of_lt_of_le hproject h.next)
    · right
      cases hlookup : c.projects.lookup a.projectId with
      | none => rfl
      | some p =>
        obtain ⟨old, hold, -⟩ := h'.projects _ p hlookup (Nat.lt_of_lt_of_le hproject h.next)
        rw [hgone] at hold
        cases hold
  events he hid hrun := by
    have hmid := Nat.lt_of_lt_of_le hid h.next
    obtain ⟨run, hold, -⟩ := h'.runs _ _ hrun hmid
    exact h'.events (h.events he hid hold) hmid hrun
  published {id p} hp hid hproject := by
    rcases h.published hp hid hproject with hmid | hgone
    · exact h'.published hmid (Nat.lt_of_lt_of_le hid h.next) (Nat.lt_of_lt_of_le hproject h.next)
    · right
      cases hlookup : c.projects.lookup p.projectId with
      | none => rfl
      | some project =>
        obtain ⟨old, hold, -⟩ := h'.projects _ _ hlookup (Nat.lt_of_lt_of_le hproject h.next)
        rw [hgone] at hold
        cases hold

variable {db : Db}

theorem scheduleArtifact_later (org projectId : Uuid) (requestedAt retentionUntil : Instant)
    (a : Artifact) :
    a.Later (ProjectDeletion.scheduleArtifact org projectId requestedAt retentionUntil a) := by
  refine ⟨scheduleArtifact_same _ _ _ _ a, ?_, ?_, ?_⟩ <;>
    unfold ProjectDeletion.scheduleArtifact <;> split
  · exact fun _ => nofun
  · exact id
  · next hin =>
    intro hgone
    simp [hgone] at hin
  · exact id
  · exact Nat.le_max_left _ _
  · exact Nat.le_refl _

/-- The time of a request is never forgotten. -/
theorem AskedAt.kept {run : Run} {target : RunState} {askedAt : Option Instant}
    (h : AskedAt run target askedAt) : run.cancellationRequestedAt ≠ none → askedAt ≠ none := by
  obtain rfl | h := h
  · exact id
  · exact fun _ => h.1

/-- The row of an active artifact that is tombstoned. -/
theorem Artifact.later_tombstoned {a : Artifact} (hactive : a.state = .active)
    (time : Option Instant) : a.Later { a with state := .tombstoned, tombstonedAt := time } := by
  refine ⟨by constructor <;> rfl, fun _ => nofun, fun hgone => ?_, Nat.le_refl _⟩
  rw [hactive] at hgone
  cases hgone

theorem Artifact.later_deleted (a : Artifact) (time : Option Instant) :
    a.Later { a with state := .deleted, deletedAt := time } :=
  ⟨by constructor <;> rfl, fun _ => nofun, fun _ => rfl, Nat.le_refl _⟩

variable {permit : Permit}

theorem Change.later {db db' : Db} (hc : Change permit db db') : db.Later db' := by
  have hself := Db.Later.refl db
  cases hc with
  | evidence event hhead hfree hplain => exact { hself with next := hself.next }
  | id => exact { hself with next := Nat.le_succ _ }
  | move hrun hmove hlive hask hfree horg hevent =>
    refine { hself with
      runs := .write Run.Later.refl hrun (Run.later_moved hmove hask.kept ?_)
      events := fun he _ _ => Table.lookup_insert_old he hfree }
    intro hstate
    rw [hstate] at hmove
    exact (moves_cancelling hmove hlive).elim
  | finish hrun hmove hend hcancel hask hfree horg hevent hres hown hactive hending husage =>
    exact { hself with
      runs := .write Run.Later.refl hrun (Run.later_moved hmove hask.kept hcancel)
      reservations := .write QuotaReservation.Later.refl hres ⟨rfl, rfl⟩
      events := fun he _ _ => Table.lookup_insert_old he hfree }
  | adopt time mediaType schemaId hrun hstate hask hfree horg hevent hres hown hactive hkept hsize
      hplace hkeyed hscope hkey hpolicy husage hcount hbytes hhead hfirst hsecond hadopted hsucceeded =>
    have hmove : Moves _ RunState.succeeded := hstate ▸ (by decide : Moves .running .succeeded)
    exact { hself with
      next := Nat.le_succ _
      runs := .write Run.Later.refl hrun
        (Run.later_moved hmove (fun hold => hold) fun hc => by rw [hstate] at hc; cases hc)
      reservations := .write QuotaReservation.Later.refl hres ⟨rfl, rfl⟩
      artifacts := .draw Artifact.Later.refl (Nat.le_refl _)
      stay := fun ha _ _ => .inl (Table.lookup_insert_kept ha)
      events := fun he _ _ => Table.lookup_insert_old he hfree }
  | note hrun hstate hfree horg hevent =>
    refine { hself with
      runs := .write Run.Later.refl hrun ?_
      events := fun he _ _ => Table.lookup_insert_old he hfree }
    exact ⟨rfl, .refl, Nat.le_succ _, fun hend => absurd hend (by rw [hstate]; decide),
      fun hold => hold, fun hold => hold, fun hdone => by rw [hstate] at hdone; cases hdone⟩
  | settle hrun hstate =>
    refine { hself with runs := .write Run.Later.refl hrun ?_, events := fun he _ _ => he }
    exact ⟨rfl, .refl, Nat.le_refl _, fun _ => rfl, fun _ => nofun,
      fun hold => hold, fun hdone => by rw [hstate] at hdone; cases hdone⟩
  | renew hres =>
    exact { hself with reservations := .write QuotaReservation.Later.refl hres ⟨rfl, rfl⟩ }
  | submit hpermit hproject hkey hstate hseq hasked hsummary hpolicy husage hslot hadmits horg hhead
      hfree
      haudit =>
    exact { hself with
      next := Nat.le_add_right _ _
      runs := .draw Run.Later.refl (Nat.le_refl _)
      reservations := .draw QuotaReservation.Later.refl (Nat.le_succ _)
      events := fun he hid _ => by
        rw [AList.lookup_insert_ne fun hk => Nat.ne_of_lt hid (congrArg Prod.fst hk)]
        exact he }
  | lineage replay hid hfree => exact { hself with next := hself.next }
  | observe manifest hreplay => exact { hself with next := hself.next }
  | record facts hfree => exact { hself with next := hself.next }
  | manifest artifactId sha256 hfacts => exact { hself with next := hself.next }
  | store artifact hproject hkind hactive hsize hkeyed hscope hkey hpolicy husage hcount hbytes =>
    exact { hself with
      next := Nat.le_succ _, artifacts := .draw Artifact.Later.refl (Nat.le_refl _)
      stay := fun ha _ _ => .inl (Table.lookup_insert_kept ha) }
  | tombstone hpermit hrow hactive =>
    exact { hself with
      artifacts := .write Artifact.Later.refl hrow (Artifact.later_tombstoned hactive _)
      stay := fun ha _ _ => .inl (Table.lookup_insert_kept ha) }
  | discard hpermit hrow hdead husage =>
    exact { hself with
      artifacts := .write Artifact.Later.refl hrow (Artifact.later_deleted _ _)
      stay := fun ha _ _ => .inl (Table.lookup_insert_kept ha) }
  | publish publication hfree =>
    exact { hself with
      next := Nat.le_succ _
      published := fun hp hid _ => .inl (by
        rw [AList.lookup_insert_ne (Nat.ne_of_lt hid)]
        exact hp) }
  | intent message hrun horg hpending hnew htype => exact { hself with next := Nat.le_succ _ }
  | claim workerId now expired hrow hclaim => exact { hself with next := hself.next }
  | acknowledge now hrow hclaimed => exact { hself with next := hself.next }
  | release availableAt hrow hclaimed => exact { hself with next := hself.next }
  | project project hactive =>
    exact { hself with
      next := Nat.le_succ _, projects := .draw Project.Later.refl (Nat.le_refl _)
      stay := fun ha _ _ => .inl ⟨_, ha⟩
      published := fun hp _ _ => .inl hp }
  | corpus corpus hproject =>
    exact { hself with next := Nat.le_succ _, corpora := .draw Eq.refl (Nat.le_refl _) }
  | version version texts hcorpus horg hproject hnext hcontent hcount hpolicy husage hroom =>
    exact { hself with next := Nat.le_succ _, versions := .draw Eq.refl (Nat.le_refl _) }
  | schedule hpermit hproject horg hactive hquiet =>
    exact { hself with
      artifacts := .mapRows fun _ a => scheduleArtifact_later _ _ _ _ a
      projects := .write Project.Later.refl hproject ⟨rfl, fun hdead => absurd hactive hdead⟩
      stay := fun ha _ _ => .inl ⟨_, Table.lookup_mapRows.trans (congrArg _ ha)⟩
      published := fun hp _ _ => .inl hp }
  | @erase org projectId project usages hpermit hproject horg hdead hready husages =>
    exact { hself with
      runs := .deleteWhere Run.Later.refl _
      reservations := .deleteWhere QuotaReservation.Later.refl _
      artifacts := .deleteWhere Artifact.Later.refl _
      projects := .erase Project.Later.refl
      corpora := .deleteWhere Eq.refl _
      versions := .deleteWhere Eq.refl _
      stay := fun {id a} ha _ _ => by
        by_cases hmine : ProjectDeletion.isProjectArtifact org projectId a = true
        · right
          rw [ProjectDeletion.isProjectArtifact, Bool.and_eq_true, beq_iff_eq, beq_iff_eq] at hmine
          rw [hmine.2]
          exact AList.lookup_erase _ _
        · left
          refine ⟨a, Table.lookup_deleteWhere.mpr ⟨ha, ?_⟩⟩
          rw [Bool.eq_false_iff.mpr hmine, Bool.false_and]
      published := fun {id p} hp _ _ => by
        by_cases hmine : (p.organizationId == org && p.projectId == projectId) = true
        · right
          rw [Bool.and_eq_true, beq_iff_eq, beq_iff_eq] at hmine
          rw [hmine.2]
          exact AList.lookup_erase _ _
        · exact .inl (Table.lookup_deleteWhere.mpr ⟨hp, Bool.eq_false_iff.mpr hmine⟩)
      events := fun {id n e run'} he _ hrun => by
        obtain ⟨hold, hkept⟩ := Table.lookup_deleteWhere.mp hrun
        refine Table.lookup_deleteWhere.mpr ⟨he, ?_⟩
        simp only [ProjectDeletion.ofProjectRun, hold, Option.any_some, hkept, Bool.and_false] }
  | policy hreplaces hfree hpolicy husage hbounds hruns => exact { hself with next := hself.next }
  | provision org => exact { hself with next := hself.next }

theorem Changes.later {db db' : Db} (hc : Changes permit db db') : db.Later db' := by
  induction hc with
  | refl => exact .refl db
  | tail _ hstep ih => exact ih.trans hstep.later

end CorpusKit
