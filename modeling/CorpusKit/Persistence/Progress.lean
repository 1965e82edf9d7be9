import CorpusKit.Persistence.Evolution

/-! # Progress reports among the events of a run

A run starts once. Its progress reports follow the event of the start with no
state change in between, and each comes after the one before it. The invariant
is kept by whatever appends one event to one run, and every change does no
more. -/

namespace CorpusKit

variable {runs : Table Uuid Run} {events : Table (Uuid × Nat) RunEvent}

/-- The run has started before event `n`, and has not changed state since. -/
def OpenAt (events : Table (Uuid × Nat) RunEvent) (id : Uuid) (n : Nat) : Prop :=
  ∃ s start, events.lookup (id, s) = some start ∧ start.isStart ∧ s < n ∧
    ∀ m e, s < m → m < n → events.lookup (id, m) = some e → e.payload.state = none

/-- The states a run that has started may be in. -/
def RunState.Began (state : RunState) : Prop :=
  state ≠ .draft ∧ state ≠ .queued ∧ state ≠ .provisioning

structure ProgressLog (runs : Table Uuid Run) (events : Table (Uuid × Nat) RunEvent) : Prop where
  began : ∀ {id n e run}, events.lookup (id, n) = some e → e.isStart →
    runs.lookup id = some run → run.state.Began
  once : ∀ {id n m e e'}, events.lookup (id, n) = some e → e.isStart →
    events.lookup (id, m) = some e' → e'.isStart → n = m
  within : ∀ {id n e}, events.lookup (id, n) = some e → e.isProgress → OpenAt events id n
  running : ∀ {id run}, runs.lookup id = some run → run.state = .running →
    OpenAt events id (run.eventSequence + 1)
  ordered : ∀ {id n m e e'}, events.lookup (id, n) = some e → e.isProgress →
    events.lookup (id, m) = some e' → e'.isProgress → n < m → e.payload.Before e'.payload

/-! ## Titles and states -/

theorem RunEvent.not_isStart {event : RunEvent} (h : event.isProgress) : ¬ event.isStart := by
  intro hstart
  have : "run.progress" = "run.started" := h.symm.trans hstart
  simp at this

theorem began_of_moves {s t : RunState} (h : Moves s t) (hs : s.Began) : t.Began := by
  unfold RunState.Began at hs ⊢
  revert h hs
  cases s <;> cases t <;> simp [Moves, transitions]

/-- Only a run that has not started starts. -/
theorem not_began_of_moves {s : RunState} (h : Moves s .running) : ¬ s.Began := by
  unfold RunState.Began
  revert h
  cases s <;> simp [Moves, transitions]

/-! ## One more event -/

theorem OpenAt.insert {id runId : Uuid} {n k : Nat} {event : RunEvent} (h : OpenAt events id n)
    (hfree : events.lookup (runId, k) = none) (hlate : id = runId → n ≤ k) :
    OpenAt (events.insert (runId, k) event) id n := by
  obtain ⟨s, start, hs, hstart, hlt, hquiet⟩ := h
  refine ⟨s, start, Table.lookup_insert_old hs hfree, hstart, hlt, fun m e hsm hmn he => ?_⟩
  rcases Table.lookup_insert_cases he with ⟨hk, rfl⟩ | ⟨-, he⟩
  · cases hk
    exact absurd hmn (Nat.not_lt.mpr (hlate rfl))
  · exact hquiet m e hsm hmn he

/-- An event without a state leaves the run as it was. -/
theorem OpenAt.note {id : Uuid} {k : Nat} {event : RunEvent} (h : OpenAt events id k)
    (hfree : events.lookup (id, k) = none) (hevent : event.payload.state = none) :
    OpenAt (events.insert (id, k) event) id (k + 1) := by
  obtain ⟨s, start, hs, hstart, hlt, hquiet⟩ := h
  refine ⟨s, start, Table.lookup_insert_old hs hfree, hstart, by omega, fun m e hsm hmn he => ?_⟩
  rcases Table.lookup_insert_cases he with ⟨-, rfl⟩ | ⟨hne, he⟩
  · exact hevent
  · refine hquiet m e hsm ?_ he
    have hmk : m ≠ k := by
      rintro rfl
      exact hne rfl
    omega

/-- A start opens. -/
theorem OpenAt.start {id : Uuid} {k : Nat} {event : RunEvent} (hevent : event.isStart) :
    OpenAt (events.insert (id, k) event) id (k + 1) :=
  ⟨k, event, AList.lookup_insert _, hevent, by omega, fun m e hkm hmk => by omega⟩

/-- The next event of one run. -/
theorem ProgressLog.append (h : ProgressLog runs events) {runId : Uuid} {k : Nat} (run' : Run)
    {event : RunEvent} (hfree : events.lookup (runId, k) = none)
    (hlast : ∀ {n e}, events.lookup (runId, n) = some e → n < k) (hseq : run'.eventSequence = k)
    (hprogress : event.isProgress → OpenAt events runId k ∧
      ∀ {n e}, events.lookup (runId, n) = some e → e.isProgress → e.payload.Before event.payload)
    (hstart : event.isStart → ∀ {n e}, events.lookup (runId, n) = some e → ¬ e.isStart)
    (hbegan : (event.isStart ∨ ∃ n e, events.lookup (runId, n) = some e ∧ e.isStart) →
      run'.state.Began)
    (hrunning : run'.state = .running → OpenAt (events.insert (runId, k) event) runId (k + 1)) :
    ProgressLog (runs.insert runId run') (events.insert (runId, k) event) where
  began he hs hrun := by
    rcases Table.lookup_insert_cases hrun with ⟨rfl, rfl⟩ | ⟨hne, hold⟩
    · refine hbegan ?_
      rcases Table.lookup_insert_cases he with ⟨-, rfl⟩ | ⟨-, hold⟩
      · exact .inl hs
      · exact .inr ⟨_, _, hold, hs⟩
    · rcases Table.lookup_insert_cases he with ⟨hk, -⟩ | ⟨-, hevent⟩
      · cases hk
        exact absurd rfl hne
      · exact h.began hevent hs hold
  once he hs he' hs' := by
    rcases Table.lookup_insert_cases he with ⟨hk, rfl⟩ | ⟨-, hold⟩ <;>
      rcases Table.lookup_insert_cases he' with ⟨hk', rfl⟩ | ⟨-, hold'⟩
    · cases hk
      cases hk'
      rfl
    · cases hk
      exact absurd hs' (hstart hs hold')
    · cases hk'
      exact absurd hs (hstart hs' hold)
    · exact h.once hold hs hold' hs'
  within he hp := by
    rcases Table.lookup_insert_cases he with ⟨hk, rfl⟩ | ⟨-, hold⟩
    · cases hk
      exact (hprogress hp).1.insert hfree fun _ => Nat.le_refl _
    · refine (h.within hold hp).insert hfree ?_
      rintro rfl
      exact (hlast hold).le
  running hrun hstate := by
    rcases Table.lookup_insert_cases hrun with ⟨rfl, rfl⟩ | ⟨hne, hold⟩
    · rw [hseq]
      exact hrunning hstate
    · exact (h.running hold hstate).insert hfree fun hid => absurd hid hne
  ordered he hp he' hp' hlt := by
    rcases Table.lookup_insert_cases he with ⟨hk, rfl⟩ | ⟨-, hold⟩ <;>
      rcases Table.lookup_insert_cases he' with ⟨hk', rfl⟩ | ⟨-, hold'⟩
    · cases hk
      cases hk'
      exact absurd hlt (Nat.lt_irrefl _)
    · cases hk
      exact absurd hlt (Nat.not_lt.mpr (hlast hold').le)
    · cases hk'
      exact (hprogress hp').2 hold hp
    · exact h.ordered hold hp hold' hp' hlt

theorem RunLog.last {nextId : Uuid} (hlog : RunLog nextId runs events) {runId : Uuid} {run : Run}
    (hrun : runs.lookup runId = some run) {n : Nat} {e : RunEvent}
    (he : events.lookup (runId, n) = some e) : n ≤ run.eventSequence := by
  refine (((hlog.consistent hrun).dense n).mp ?_).2
  simp only [runRecord, he, Option.map_some, Option.isSome_some]

section Changes

variable {nextId : Uuid} {runId : Uuid} {run : Run} {event : RunEvent}

/-- A run changes its state. -/
theorem ProgressLog.move (h : ProgressLog runs events) (hlog : RunLog nextId runs events)
    (run' : Run) (hrun : runs.lookup runId = some run) (hmove : Moves run.state run'.state)
    (hseq : run'.eventSequence = run.eventSequence + 1)
    (hfree : events.lookup (runId, run.eventSequence + 1) = none)
    (htitle : event.Titled run'.state) :
    ProgressLog (runs.insert runId run') (events.insert (runId, run.eventSequence + 1) event) := by
  refine h.append run' hfree (fun he => Nat.lt_succ_of_le (hlog.last hrun he)) hseq
    (fun hp => absurd hp htitle.1) (fun hs n e he hes => ?_) ?_ fun hr => .start (htitle.2.mpr hr)
  · rw [htitle.2.mp hs] at hmove
    exact not_began_of_moves hmove (h.began he hes hrun)
  · rintro (hs | ⟨n, e, he, hes⟩)
    · rw [htitle.2.mp hs]
      simp [RunState.Began]
    · exact began_of_moves hmove (h.began he hes hrun)

/-- A running run gets a progress report. -/
theorem ProgressLog.note (h : ProgressLog runs events) (hlog : RunLog nextId runs events)
    (hrun : runs.lookup runId = some run) (hstate : run.state = .running)
    (hfree : events.lookup (runId, run.eventSequence + 1) = none)
    (hevent : event.payload.state = none) (htitle : event.isProgress)
    (hnext : ∀ {n e}, events.lookup (runId, n) = some e → e.isProgress →
      e.payload.Before event.payload) :
    ProgressLog (runs.insert runId { run with eventSequence := run.eventSequence + 1 })
      (events.insert (runId, run.eventSequence + 1) event) := by
  have hopen := h.running hrun hstate
  refine h.append _ hfree (fun he => Nat.lt_succ_of_le (hlog.last hrun he)) rfl
    (fun _ => ⟨hopen, hnext⟩) (fun hs => absurd hs (RunEvent.not_isStart htitle)) (fun _ => ?_)
    fun _ => hopen.note hfree hevent
  rw [hstate]
  simp [RunState.Began]

/-- A run enters queued. -/
theorem ProgressLog.enter (h : ProgressLog runs events) (hlog : RunLog nextId runs events)
    (hstate : run.state = .queued) (hseq : run.eventSequence = 1) (htitle : event.Titled .queued) :
    ProgressLog (runs.insert nextId run) (events.insert (nextId, 1) event) := by
  have hnone {n : Nat} {e : RunEvent} (he : events.lookup (nextId, n) = some e) : False := by
    obtain ⟨owner, howner, -⟩ := hlog.owned he
    exact Nat.lt_irrefl _ (hlog.fresh _ _ howner)
  have hfree : events.lookup (nextId, 1) = none := by
    cases he : events.lookup (nextId, 1) with
    | none => rfl
    | some e => exact (hnone he).elim
  have hstart : ¬ event.isStart := fun hs => nomatch htitle.2.mp hs
  refine h.append run hfree (fun he => (hnone he).elim) hseq (fun hp => absurd hp htitle.1)
    (fun hs => absurd hs hstart) ?_ fun hr => ?_
  · rintro (hs | ⟨n, e, he, -⟩)
    · exact absurd hs hstart
    · exact (hnone he).elim
  · rw [hstate] at hr
    cases hr

/-- Columns outside the journal may change freely. -/
theorem ProgressLog.touch (h : ProgressLog runs events) (run' : Run)
    (hrun : runs.lookup runId = some run) (hstate : run'.state = run.state)
    (hseq : run'.eventSequence = run.eventSequence) :
    ProgressLog (runs.insert runId run') events where
  began he hs hrun' := by
    rcases Table.lookup_insert_cases hrun' with ⟨rfl, rfl⟩ | ⟨-, hold⟩
    · rw [hstate]
      exact h.began he hs hrun
    · exact h.began he hs hold
  once := h.once
  within := h.within
  running hrun' hr := by
    rcases Table.lookup_insert_cases hrun' with ⟨rfl, rfl⟩ | ⟨-, hold⟩
    · rw [hseq]
      exact h.running hrun (hstate.symm.trans hr)
    · exact h.running hold hr
  ordered := h.ordered

/-- Whole runs go, each with exactly its events. -/
theorem ProgressLog.erase (h : ProgressLog runs events) (hlog : RunLog nextId runs events)
    (gone : Run → Bool) (lost : Uuid × Nat → RunEvent → Bool)
    (hlost : ∀ {id n event run}, events.lookup (id, n) = some event → runs.lookup id = some run →
      lost (id, n) event = gone run) :
    ProgressLog (runs.deleteWhere fun _ run => gone run) (events.deleteWhere lost) := by
  have hopen {id : Uuid} {n : Nat} {run : Run} (ho : OpenAt events id n)
      (hrun : runs.lookup id = some run) (hkept : gone run = false) :
      OpenAt (events.deleteWhere lost) id n := by
    obtain ⟨s, start, hs, hstart, hlt, hquiet⟩ := ho
    exact ⟨s, start, Table.lookup_deleteWhere.mpr ⟨hs, (hlost hs hrun).trans hkept⟩, hstart, hlt,
      fun m e hsm hmn he => hquiet m e hsm hmn (Table.lookup_deleteWhere.mp he).1⟩
  refine ⟨fun he hs hrun => ?_, fun he hs he' hs' => ?_, fun he hp => ?_, fun hrun hr => ?_,
    fun he hp he' hp' => ?_⟩
  · exact h.began (Table.lookup_deleteWhere.mp he).1 hs (Table.lookup_deleteWhere.mp hrun).1
  · exact h.once (Table.lookup_deleteWhere.mp he).1 hs (Table.lookup_deleteWhere.mp he').1 hs'
  · obtain ⟨he, hl⟩ := Table.lookup_deleteWhere.mp he
    obtain ⟨owner, howner, -⟩ := hlog.owned he
    exact hopen (h.within he hp) howner ((hlost he howner).symm.trans hl)
  · obtain ⟨hrun, hkept⟩ := Table.lookup_deleteWhere.mp hrun
    exact hopen (h.running hrun hr) hrun hkept
  · exact h.ordered (Table.lookup_deleteWhere.mp he).1 hp (Table.lookup_deleteWhere.mp he').1 hp'

end Changes

/-! ## Every change -/

def Db.Progress (db : Db) : Prop := ProgressLog db.runs db.runEvents

variable {permit : Permit} {db db' : Db}

theorem Change.progress (hc : Change permit db db') (hi : db.Inv) (h : db.Progress) :
    db'.Progress := by
  have hlog := hi.log
  cases hc with
  | move hrun hmove hlive hask hfree horg hevent htitle =>
    exact ProgressLog.move h hlog _ hrun hmove rfl hfree htitle
  | finish hrun hmove hend hcancel hask hfree horg hevent hres hown hactive hending husage htitle =>
    exact ProgressLog.move h hlog _ hrun hmove rfl hfree htitle
  | adopt time mediaType schemaId hrun hstate hask hfree horg hevent hres hown hactive hkept hsize
      hplace hkeyed hscope hkey hpolicy husage hcount hbytes hhead hfirst hsecond hadopted hsucceeded
      htitle =>
    have hmove : Moves _ RunState.succeeded := hstate ▸ (by decide : Moves .running .succeeded)
    exact ProgressLog.move h hlog _ hrun hmove rfl hfree htitle
  | note hrun hstate hfree horg hevent htitle hnext =>
    exact ProgressLog.note h hlog hrun hstate hfree hevent htitle hnext
  | settle hrun hstate => exact ProgressLog.touch h _ hrun rfl rfl
  | submit hpermit hproject hkey hstate hseq hasked hsummary hpolicy husage hslot hadmits horg hhead
      hfree haudit htitle =>
    exact ProgressLog.enter h hlog hstate hseq htitle
  | @erase org projectId project usages hpermit hproject horg hdead hready husages =>
    exact ProgressLog.erase h hlog (ProjectDeletion.isProjectRun org projectId)
        (fun key row => ProjectDeletion.ofProjectRun db org projectId row.organizationId key.1)
        fun he hrun => by
      obtain ⟨owner, howner, ho⟩ := hlog.owned he
      rw [hrun] at howner
      cases howner
      exact ofProjectRun_eq hrun ho
  | _ => exact h

theorem Changes.progress (hc : Changes permit db db') (hi : db.Inv) (h : db.Progress) :
    db'.Progress := by
  induction hc with
  | refl => exact h
  | tail hs hstep ih => exact hstep.progress (Changes.inv hs hi) ih

theorem Db.progress_initial (memberships : List Membership) : (Db.initial memberships).Progress where
  began he := (Table.not_mem_empty he).elim
  once he := (Table.not_mem_empty he).elim
  within he := (Table.not_mem_empty he).elim
  running hrun := (Table.not_mem_empty hrun).elim
  ordered he := (Table.not_mem_empty he).elim

end CorpusKit
