import CorpusKit.Refinement.Submissions
import CorpusKit.System.Obligations
import CorpusKit.Web.RunEvents

/-! # Watching a run

A view polls the log of a run while the whole system goes on. Each answer is read at
the moment the server gives it, polls fail, and rows of erased projects go. -/

namespace CorpusKit

open Interleaving Transaction Web

variable {dep : Deployment} {memberships : List Membership}

/-- The system and a view of a run as they move on. -/
inductive Watched (dep : Deployment) (memberships : List Membership) (who : JobActor)
    (runId : Uuid) : ServiceConfig dep → RunDetail → Prop
  | mount {cfg} (h : Reachable (M := system dep (services dep)) free (World.initial memberships) cfg) :
      Watched dep memberships who runId cfg .mount
  | system {cfg cfg' view} (h : Watched dep memberships who runId cfg view)
      (hstep : Step (M := system dep (services dep)) free cfg cfg') :
      Watched dep memberships who runId cfg' view
  | send {cfg view} (h : Watched dep memberships who runId cfg view) :
      Watched dep memberships who runId cfg view.send
  | run {cfg view snapshot db} (h : Watched dep memberships who runId cfg view)
      (hanswer : Returns (JobControlPlane.getRun who runId) cfg.world.db snapshot db) :
      Watched dep memberships who runId cfg (view.answerRun snapshot.run.state)
  | events {cfg view poll page db} (h : Watched dep memberships who runId cfg view)
      (hpoll : view.poll = some poll)
      (hanswer : Returns (JobControlPlane.events who runId poll.after 100) cfg.world.db page db) :
      Watched dep memberships who runId cfg (view.answerEvents page)
  | settle {cfg view} (h : Watched dep memberships who runId cfg view) :
      Watched dep memberships who runId cfg view.settle
  | fail {cfg view} (h : Watched dep memberships who runId cfg view) :
      Watched dep memberships who runId cfg view.fail

/-! ## What the view may show -/

/-- The run has been there, and if it still is then its log has the event. -/
def Db.Vouches (db : Db) (runId : Uuid) (e : EventSnapshot) : Prop :=
  runId < db.nextId ∧ ∀ run, db.runs.lookup runId = some run → db.Logged runId e

/-- A piece of the log from after a number. -/
def Db.Piece (db : Db) (runId : Uuid) (after : Nat) (l : List EventSnapshot) : Prop :=
  l.map EventSnapshot.sequence = List.range' (after + 1) l.length ∧ ∀ e ∈ l, db.Vouches runId e

section Pieces

variable {db db' : Db} {runId : Uuid} {after : Nat} {l l' : List EventSnapshot}

/-- Erased runs do not come back, and the log of one that stays only grows. -/
theorem Db.Piece.later (h : db.Piece runId after l) (hl : db.Later db') :
    db'.Piece runId after l := by
  refine ⟨h.1, fun e he => ?_⟩
  obtain ⟨hknown, hlogged⟩ := h.2 e he
  refine ⟨Nat.lt_of_lt_of_le hknown hl.next, fun run hrun => ?_⟩
  obtain ⟨run₀, hrun₀, -⟩ := hl.runs _ _ hrun hknown
  obtain ⟨row, hrow, heq⟩ := hlogged run₀ hrun₀
  exact ⟨row, hl.events hrow hknown hrun, heq⟩

/-- Entries of a log with the same numbers are the same. -/
theorem logged_ext (h : ∀ e ∈ l, db.Logged runId e) (h' : ∀ e ∈ l', db.Logged runId e)
    (hnumbers : l.map EventSnapshot.sequence = l'.map EventSnapshot.sequence) : l = l' := by
  induction l generalizing l' with
  | nil => exact (List.map_eq_nil_iff.mp hnumbers.symm).symm
  | cons e rest ih =>
    cases l' with
    | nil => cases hnumbers
    | cons e' rest' =>
      rw [List.map_cons, List.map_cons, List.cons.injEq] at hnumbers
      have hhead := (h e List.mem_cons_self).unique (h' e' List.mem_cons_self) hnumbers.1
      have htail := ih (fun x hx => h x (List.mem_cons_of_mem _ hx))
        (fun x hx => h' x (List.mem_cons_of_mem _ hx)) hnumbers.2
      rw [hhead, htail]

/-- A page is a piece. -/
theorem eventsAfter_isPiece {org : Uuid} {run : Run} (hi : RunLog db.nextId db.runs db.runEvents)
    (hrun : db.runs.lookup runId = some run) (horg : run.organizationId = org)
    (after limit : Nat) :
    db.Piece runId after (db.eventsAfter org runId after limit) ∧
      (db.eventsAfter org runId after limit).length = min limit (run.eventSequence - after) := by
  have hdense (n : Nat) : (db.runEvents.lookup (runId, n)).isSome ↔
      1 ≤ n ∧ n ≤ run.eventSequence := by
    have hentry := (hi.consistent hrun).dense n
    rwa [runRecord, Option.isSome_map] at hentry
  have howned (n : Nat) (row : RunEvent) (hrow : db.runEvents.lookup (runId, n) = some row) :
      row.organizationId = org := by
    obtain ⟨owner, howner, heq⟩ := hi.owned hrow
    rw [hrun] at howner
    cases howner
    rw [heq, horg]
  obtain ⟨hnumbers, hlogged⟩ := eventsAfter_piece hdense howned after limit
  have hlength := congrArg List.length hnumbers
  rw [List.length_map, List.length_range'] at hlength
  exact ⟨⟨by rw [hnumbers, hlength], fun e he => ⟨hi.fresh _ _ hrun, fun _ _ => hlogged e he⟩⟩,
    hlength⟩

/-- A piece of the log of a run that is there is what the log says. -/
theorem Db.Piece.eq_eventsAfter {run : Run} (h : db.Piece runId after l)
    (hi : RunLog db.nextId db.runs db.runEvents) (hrun : db.runs.lookup runId = some run) :
    l = db.eventsAfter run.organizationId runId after l.length ∧
      (l ≠ [] → after + l.length ≤ run.eventSequence) := by
  have hlogged : ∀ e ∈ l, db.Logged runId e := fun e he => (h.2 e he).2 run hrun
  have hbound : l ≠ [] → after + l.length ≤ run.eventSequence := by
    intro hne
    have hlast : after + l.length ∈ l.map EventSnapshot.sequence := by
      have hpos := List.length_pos_iff.mpr hne
      rw [h.1, List.mem_range'_1]
      omega
    obtain ⟨e, he, hsequence⟩ := List.mem_map.mp hlast
    obtain ⟨row, hrow, -⟩ := hlogged e he
    have hentry := ((hi.consistent hrun).dense e.sequence).mp (by
      rw [runRecord, Option.isSome_map, hrow]
      rfl)
    rw [← hsequence]
    exact hentry.2
  obtain ⟨⟨hnumbers, hpage⟩, hlength⟩ := eventsAfter_isPiece hi hrun rfl after l.length
  refine ⟨logged_ext hlogged (fun e he => (hpage e he).2 run hrun) ?_, hbound⟩
  rw [h.1, hnumbers, hlength]
  by_cases hne : l = []
  · rw [hne, List.length_nil, Nat.zero_min]
  · have := hbound hne
    rw [Nat.min_eq_left (by omega)]

/-- Merging a piece that goes on where the list is, or before. -/
theorem Db.Piece.merge (h : db.Piece runId 0 l) (h' : db.Piece runId after l')
    (hafter : after ≤ l.length) :
    db.Piece runId 0 (mergeMonotonicEvents l l') ∧
      (mergeMonotonicEvents l l').length = max l.length (after + l'.length) := by
  have hnumbers := mergeMonotonicEvents_numbers h.1 h'.1 hafter
  have hlength := congrArg List.length hnumbers
  rw [List.length_map, List.length_range'] at hlength
  have hnodup : (l.map EventSnapshot.sequence).Nodup := by
    rw [h.1]
    exact List.nodup_range'
  obtain ⟨-, -, hmem⟩ := mergeMonotonicEvents_spec l' hnodup
  exact ⟨⟨by rw [hnumbers, hlength], fun e he => (hmem e he).elim (h.2 e) (h'.2 e)⟩, hlength⟩

end Pieces

/-! ## Every run -/

/-- What holds of a view: it shows a piece from the start, and asks for what comes after. -/
structure Web.RunDetail.Shows (view : RunDetail) (db : Db) (runId : Uuid) : Prop where
  piece : db.Piece runId 0 view.events
  cursor : view.cursor = view.events.length
  after : ∀ poll ∈ view.poll, poll.after = view.cursor
  page : ∀ poll ∈ view.poll, ∀ page ∈ poll.incoming, db.Piece runId poll.after page

section Views

variable {db db' : Db} {runId : Uuid} {view : RunDetail}

theorem Web.RunDetail.Shows.later (h : view.Shows db runId) (hl : db.Later db') :
    view.Shows db' runId where
  piece := h.piece.later hl
  cursor := h.cursor
  after := h.after
  page poll hpoll page hpage := (h.page poll hpoll page hpage).later hl

theorem Web.RunDetail.Shows.receive (h : view.Shows db runId) {latest : RunState}
    {page : List EventSnapshot} (hpage : db.Piece runId view.cursor page) :
    (view.receive latest page).Shows db runId := by
  have hmerge := h.piece.merge hpage (Nat.le_of_eq h.cursor)
  have hcursor := nextEventCursor_eq hmerge.1.1
  exact ⟨hmerge.1, hcursor, nofun, nofun⟩

end Views

section Runs

variable {who : JobActor} {runId : Uuid} {cfg : ServiceConfig dep} {view : RunDetail}

/-- What a page of the server is. -/
theorem JobControlPlane.events_returns {after limit : Nat} {page : List EventSnapshot} {db db' : Db}
    (h : Returns (JobControlPlane.events who runId after limit) db page db') :
    ∃ run, db.runs.lookup runId = some run ∧ run.organizationId = who.organizationId ∧
      page = db.eventsAfter who.organizationId runId after limit := by
  obtain ⟨a, s, hactor, h⟩ := Returns.bind h
  obtain ⟨a, s, hget, hactor⟩ := Returns.bind hactor
  obtain ⟨rfl, rfl⟩ := hget.get
  obtain ⟨row, s, hfound, hactor⟩ := hactor.bind
  obtain ⟨-, rfl⟩ := hfound.found
  obtain ⟨-, rfl⟩ := hactor.pure
  obtain ⟨run, s, hrun, h⟩ := h.bind
  obtain ⟨hrow, -, rfl⟩ := JobControlPlane.activeRun_returns hrun
  obtain ⟨a, s, hget, h⟩ := h.bind
  obtain ⟨rfl, rfl⟩ := hget.get
  obtain ⟨rfl, -⟩ := h.pure
  obtain ⟨hlookup, horg⟩ := Option.filter_eq_some_iff.mp hrow
  exact ⟨run, hlookup, by simpa using horg, rfl⟩

theorem watched_steps {cfg' : ServiceConfig dep} (h : Watched dep memberships who runId cfg view)
    (hrun : Relation.ReflTransGen (Step (M := system dep (services dep)) free) cfg cfg') :
    Watched dep memberships who runId cfg' view := by
  induction hrun with
  | refl => exact h
  | tail _ hstep ih => exact ih.system hstep

theorem watched_shows (h : Watched dep memberships who runId cfg view) :
    Reachable (M := system dep (services dep)) free (World.initial memberships) cfg ∧
      view.Shows cfg.world.db runId := by
  induction h with
  | mount h => exact ⟨h, ⟨rfl, fun e he => (List.not_mem_nil he).elim⟩, rfl, nofun, nofun⟩
  | system h hstep ih =>
    have hlater := (run_later ih.1 (.single hstep)).db
    exact ⟨ih.1.tail hstep, ih.2.later hlater⟩
  | @send cfg view h ih =>
    refine ⟨ih.1, ?_⟩
    unfold RunDetail.send
    split
    · exact ih.2
    · refine ⟨ih.2.piece, ih.2.cursor, ?_, ?_⟩
      · intro poll hpoll
        cases hpoll
        rfl
      · intro poll hpoll
        cases hpoll
        nofun
  | @run cfg view snapshot db h hanswer ih =>
    refine ⟨ih.1, ih.2.piece, ih.2.cursor, ?_, ?_⟩ <;> intro poll hpoll <;>
      obtain ⟨p, hp, rfl⟩ := Option.map_eq_some_iff.mp hpoll
    · exact ih.2.after p hp
    · exact ih.2.page p hp
  | @events cfg view poll page db h hpoll hanswer ih =>
    obtain ⟨run, hrun, horg, rfl⟩ := JobControlPlane.events_returns hanswer
    have hpiece := (eventsAfter_isPiece (reachable_inv ih.1).db.log hrun horg poll.after 100).1
    refine ⟨ih.1, ih.2.piece, ih.2.cursor, ?_, ?_⟩ <;> intro p hp <;>
      obtain ⟨q, hq, rfl⟩ := Option.map_eq_some_iff.mp hp
    · exact ih.2.after q hq
    · rw [hpoll] at hq
      cases hq
      intro page hpage
      cases hpage
      exact hpiece
  | @settle cfg view h ih =>
    refine ⟨ih.1, ?_⟩
    unfold RunDetail.settle
    split
    · exact ih.2
    · next p hpoll =>
      split
      · next latest incoming hlatest hincoming =>
        have hpage := ih.2.page p hpoll incoming hincoming
        rw [ih.2.after p hpoll] at hpage
        exact ih.2.receive hpage
      · exact ih.2
  | @fail cfg view h ih =>
    refine ⟨ih.1, ?_⟩
    unfold RunDetail.fail
    split
    · exact ⟨ih.2.piece, ih.2.cursor, nofun, nofun⟩
    · exact ih.2

/-- **An exact feed.** While its run is there, what a view shows is exactly the first events of
its log, up to the cursor, and one more page extends it by exactly what comes next. -/
theorem event_feed_exact (h : Watched dep memberships who runId cfg view) {run : Run}
    (hrun : cfg.world.db.runs.lookup runId = some run) :
    view.events = cfg.world.db.eventsAfter run.organizationId runId 0 view.cursor ∧
      view.cursor ≤ run.eventSequence ∧
      ∀ page db latest,
        Returns (JobControlPlane.events who runId view.cursor 100) cfg.world.db page db →
          (view.receive latest page).events =
            cfg.world.db.eventsAfter run.organizationId runId 0 (view.cursor + 100) := by
  obtain ⟨hreach, hshows⟩ := watched_shows h
  have hlog := (reachable_inv hreach).db.log
  obtain ⟨hevents, hbound⟩ := hshows.piece.eq_eventsAfter hlog hrun
  rw [← hshows.cursor] at hevents
  have hcursor : view.cursor ≤ run.eventSequence := by
    rw [hshows.cursor]
    by_cases hne : view.events = []
    · rw [hne]
      exact Nat.zero_le _
    · have := hbound hne
      omega
  refine ⟨hevents, hcursor, fun page db latest hret => ?_⟩
  obtain ⟨run', hrun', horg, rfl⟩ := JobControlPlane.events_returns hret
  rw [hrun] at hrun'
  cases hrun'
  obtain ⟨hpage, hlength⟩ := eventsAfter_isPiece hlog hrun horg view.cursor 100
  obtain ⟨hmerged, hlong⟩ := hshows.piece.merge hpage (Nat.le_of_eq hshows.cursor)
  obtain ⟨⟨hnumbers, hfirst⟩, hcount⟩ := eventsAfter_isPiece hlog hrun rfl 0 (view.cursor + 100)
  refine logged_ext (fun e he => (hmerged.2 e he).2 run hrun) (fun e he => (hfirst e he).2 run hrun) ?_
  rw [hnumbers, hcount]
  refine hmerged.1.trans ?_
  rw [hlong, hlength, ← hshows.cursor]
  congr 1
  omega

end Runs

theorem returns_of_toOption {α : Type} {m : DbTx α} {db : Db} {r : α × Db}
    (h : (m.run db).toOption = some r) : Returns m db r.1 r.2 := by
  unfold Returns
  cases hresult : m.run db with
  | error e =>
    rw [hresult] at h
    cases h
  | ok r' =>
    rw [hresult] at h
    cases h
    rfl

/-- The first poll of a view. -/
def smallView (snapshot : RunSnapshot) (page : List EventSnapshot) : RunDetail :=
  ((RunDetail.mount.send.answerRun snapshot.run.state).answerEvents page).settle

/-- A poll shows the submission; then call 3 starts the run. -/
def pollsBehind (cfg : Config Small) : Bool :=
  ((JobControlPlane.getRun ⟨"owner", 1, none⟩ 1).run cfg.world.db).toOption.any fun snapshot =>
  ((JobControlPlane.events ⟨"owner", 1, none⟩ 1 0 100).run cfg.world.db).toOption.any fun page =>
  (run cfg (.start (ServiceCall.beginExecution smallReference) :: acts Small 3 8)).any fun cfg' =>
    (cfg'.world.db.runs.lookup 1).any fun row =>
      (smallView snapshot.1 page.1).cursor == 1 && row.eventSequence == 3

def polledBehind : Sampled (smallRun smallSubmission) pollsBehind := .of (by decide +kernel)

theorem event_feed_exact_behind :
    ∃ cfg view row, Watched .small smallMembers ⟨"owner", 1, none⟩ 1 cfg view ∧
      cfg.world.db.runs.lookup 1 = some row ∧ view.cursor = 1 ∧ row.eventSequence = 3 ∧
      view.events = cfg.world.db.eventsAfter row.organizationId 1 0 1 := by
  obtain ⟨snapshot, hsnapshot, hbehind⟩ := (Option.any_eq_true _ _).mp polledBehind.checked
  obtain ⟨page, hpage, hbehind⟩ := (Option.any_eq_true _ _).mp hbehind
  obtain ⟨cfg', hcfg', hbehind⟩ := (Option.any_eq_true _ _).mp hbehind
  obtain ⟨row, hrow, hbehind⟩ := (Option.any_eq_true _ _).mp hbehind
  simp only [Bool.and_eq_true, beq_iff_eq] at hbehind
  obtain ⟨hcursor, hlast⟩ := hbehind
  have hpolled : Watched .small smallMembers ⟨"owner", 1, none⟩ 1 polledBehind.cfg
      (smallView snapshot.1 page.1) :=
    .settle (.events (.run (.send (.mount (smallRun_reachable polledBehind.run)))
      (returns_of_toOption hsnapshot)) rfl (returns_of_toOption hpage))
  have hwatched := watched_steps hpolled (run_steps hcfg')
  have hexact := (event_feed_exact hwatched hrow).1
  rw [hcursor] at hexact
  exact ⟨cfg', smallView snapshot.1 page.1, row, hwatched, hrow, hcursor, hlast, hexact⟩

end CorpusKit
