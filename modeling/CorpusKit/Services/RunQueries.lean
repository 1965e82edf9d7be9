import CorpusKit.Library.Paging
import CorpusKit.Services.Jobs

/-! # Reading runs

The read side of the control plane: the snapshot of one run, and a page of its
events after a cursor. -/

namespace CorpusKit

open Transaction

/-- An event as a page lists it. -/
structure EventSnapshot where
  sequence : Nat
  eventType : String
  payload : EventPayload
  deriving DecidableEq, Repr

def eventSnapshot (e : (Uuid × Nat) × RunEvent) : EventSnapshot :=
  ⟨e.1.2, e.2.eventType, e.2.payload⟩

/-- The events of a run after a sequence number, in order, at most `limit` of them. -/
def Db.eventsAfter (db : Db) (organizationId runId : Uuid) (after limit : Nat) :
    List EventSnapshot :=
  let rows := db.runEvents.select fun key event =>
    event.organizationId == organizationId && key.1 == runId && decide (after < key.2)
  ((rows.insertionSort fun a b => a.1.2 ≤ b.1.2).take limit).map eventSnapshot

structure RunSnapshot where
  run : Run
  outboxState : OutboxState
  deriving DecidableEq, Repr

namespace JobControlPlane

/-- `get`. -/
def getRun (who : JobActor) (runId : Uuid) : DbTx RunSnapshot := do
  let _ ← actor who
  let run ← activeRun who.organizationId runId
  let outboxState ← dispatchState runId
  pure ⟨run, outboxState⟩

def events (who : JobActor) (runId : Uuid) (after limit : Nat) : DbTx (List EventSnapshot) := do
  let _ ← actor who
  let _ ← activeRun who.organizationId runId
  let db ← get
  pure (db.eventsAfter who.organizationId runId after limit)

end JobControlPlane

/-! ## A page is a piece of the log -/

/-- The journal of the run has this event. -/
def Db.Logged (db : Db) (runId : Uuid) (e : EventSnapshot) : Prop :=
  ∃ row, db.runEvents.lookup (runId, e.sequence) = some row ∧
    e = eventSnapshot ((runId, e.sequence), row)

/-- The event under a number of a log is one event. -/
theorem Db.Logged.unique {db : Db} {runId : Uuid} {e e' : EventSnapshot} (h : db.Logged runId e)
    (h' : db.Logged runId e') (hsequence : e.sequence = e'.sequence) : e = e' := by
  obtain ⟨row, hrow, he⟩ := h
  obtain ⟨row', hrow', he'⟩ := h'
  rw [hsequence, hrow'] at hrow
  cases hrow
  rw [he, he', hsequence]

/-- Numbers in order without repetition and without a gap. -/
theorem numbers_eq_range' {l : List Nat} {a n : Nat} (hl : l.Pairwise (· < ·))
    (h : ∀ m, m ∈ l ↔ a ≤ m ∧ m < a + n) : l = List.range' a n := by
  have hnodup : l.Nodup := hl.imp fun hlt => Nat.ne_of_lt hlt
  refine List.Perm.eq_of_pairwise (fun x y _ _ hxy hyx => absurd hyx (Nat.lt_asymm hxy)) hl
    List.pairwise_lt_range' ((List.perm_ext_iff_of_nodup hnodup List.nodup_range').mpr fun m => ?_)
  rw [h, List.mem_range'_1]

/-- A page of a dense log is the next piece of it. -/
theorem eventsAfter_piece {db : Db} {org runId : Uuid} {last : Nat}
    (hdense : ∀ n, (db.runEvents.lookup (runId, n)).isSome ↔ 1 ≤ n ∧ n ≤ last)
    (howned : ∀ n row, db.runEvents.lookup (runId, n) = some row → row.organizationId = org)
    (after limit : Nat) :
    (db.eventsAfter org runId after limit).map EventSnapshot.sequence =
        List.range' (after + 1) (min limit (last - after)) ∧
      ∀ e ∈ db.eventsAfter org runId after limit, db.Logged runId e := by
  let rows := db.runEvents.select fun key event =>
    event.organizationId == org && key.1 == runId && decide (after < key.2)
  have hrow (key : Uuid × Nat) (row : RunEvent) : (key, row) ∈ rows ↔
      db.runEvents.lookup key = some row ∧ key.1 = runId ∧ after < key.2 := by
    rw [Table.mem_select, Bool.and_eq_true, Bool.and_eq_true, beq_iff_eq, beq_iff_eq, decide_eq_true_eq]
    constructor
    · rintro ⟨hlookup, ⟨-, hid⟩, hafter⟩
      exact ⟨hlookup, hid, hafter⟩
    · rintro ⟨hlookup, rfl, hafter⟩
      exact ⟨hlookup, ⟨howned _ _ hlookup, rfl⟩, hafter⟩
  have hkeys : rows.Pairwise fun a b => a.1.2 ≠ b.1.2 := by
    refine Table.select_nodup.imp_of_mem fun {a b} ha hb hne hsequence => hne ?_
    obtain ⟨⟨id, n⟩, row⟩ := a
    obtain ⟨⟨id', n'⟩, row'⟩ := b
    obtain ⟨hfirst, hid, -⟩ := (hrow _ _).mp ha
    obtain ⟨hsecond, hid', -⟩ := (hrow _ _).mp hb
    have hkey : (id, n) = (id', n') := Prod.ext (hid.trans hid'.symm) hsequence
    rw [hkey, hsecond] at hfirst
    cases hfirst
    rw [hkey]
  have hsorted := Paging.sort_ordered hkeys
  have hmem {e : (Uuid × Nat) × RunEvent} :
      e ∈ rows.insertionSort (fun a b => a.1.2 ≤ b.1.2) ↔ e ∈ rows :=
    (List.perm_insertionSort _ rows).mem_iff
  have hnumbers : (rows.insertionSort fun a b => a.1.2 ≤ b.1.2).map (fun e => e.1.2) =
      List.range' (after + 1) (last - after) := by
    refine numbers_eq_range' (List.pairwise_map.mpr hsorted) fun m => ?_
    rw [List.mem_map]
    constructor
    · rintro ⟨⟨⟨id, n⟩, row⟩, he, rfl⟩
      obtain ⟨hlookup, rfl, hafter⟩ := (hrow _ _).mp (hmem.mp he)
      have hbounds := (hdense n).mp (by rw [hlookup]; rfl)
      dsimp only
      omega
    · intro hm
      obtain ⟨row, hlookup⟩ := Option.isSome_iff_exists.mp ((hdense m).mpr ⟨by omega, by omega⟩)
      exact ⟨((runId, m), row), hmem.mpr ((hrow _ _).mpr ⟨hlookup, rfl, by dsimp only; omega⟩), rfl⟩
  constructor
  · have htake := congrArg (List.take limit) hnumbers
    rw [← List.map_take] at htake
    unfold Db.eventsAfter
    rw [List.map_map]
    refine htake.trans ?_
    obtain hle | hge := Nat.le_total limit (last - after)
    · rw [List.take_range'_of_length_ge hle, Nat.min_eq_left hle]
    · rw [List.take_range'_of_length_le hge, Nat.min_eq_right hge]
  · intro e he
    obtain ⟨⟨⟨id, n⟩, row⟩, hmemTake, rfl⟩ := List.mem_map.mp he
    obtain ⟨hlookup, rfl, -⟩ := (hrow _ _).mp (hmem.mp (List.mem_of_mem_take hmemTake))
    exact ⟨row, hlookup, rfl⟩

end CorpusKit
