import CorpusKit.Library.Journal
import CorpusKit.Persistence.Models
import CorpusKit.Library.Table

/-! # The run log

A run row and its events are a numbered journal: `eventSequence` is the number
of the latest event, and the events that name a state trace the run through the
declared transitions. The lemmas say what keeps a table of runs and a table of
events in that relation: entering a new run, appending one event to one run,
touching columns the journal does not see, and erasing whole runs. -/

namespace CorpusKit

open Journal

/-- The journal of a run. -/
def runRecord (events : Table (Uuid × Nat) RunEvent) (runId : Uuid) (run : Run) :
    Journal.Record RunState where
  state := run.state
  last := run.eventSequence
  entry n := (events.lookup (runId, n)).map fun event => event.payload.state

/-- Only a running run has events that name no state. -/
def noting (state : RunState) : Prop := state = .running

structure RunLog (nextId : Uuid) (runs : Table Uuid Run)
    (events : Table (Uuid × Nat) RunEvent) : Prop where
  fresh : Table.Below nextId runs
  consistent : ∀ {id run}, runs.lookup id = some run →
    Consistent Moves .queued (runRecord events id run)
  owned : ∀ {id n event}, events.lookup (id, n) = some event →
    ∃ run, runs.lookup id = some run ∧ event.organizationId = run.organizationId
  asked : ∀ {id run}, runs.lookup id = some run → run.cancellationRequestedAt ≠ none →
    run.state = .cancelling ∨ run.state = .cancelled
  keys : ∀ {id id' run run'}, runs.lookup id = some run → runs.lookup id' = some run' →
    run.organizationId = run'.organizationId → run.idempotencyKey = run'.idempotencyKey → id = id'

variable {nextId : Uuid} {runs : Table Uuid Run} {events : Table (Uuid × Nat) RunEvent}

theorem RunLog.mono (h : RunLog nextId runs events) {n : Uuid} (hn : nextId ≤ n) :
    RunLog n runs events :=
  { h with fresh := h.fresh.mono hn }

theorem runRecord_insert_ne {id runId : Uuid} {n : Nat} {event : RunEvent} (run : Run)
    (hne : id ≠ runId) :
    runRecord (events.insert (runId, n) event) id run = runRecord events id run := by
  have hkey : ∀ m, (id, m) ≠ (runId, n) := fun m hm => hne (congrArg Prod.fst hm)
  simp only [runRecord, AList.lookup_insert_ne (hkey _)]

/-- The next event of a run is an entry of its journal. -/
theorem runRecord_append {runId : Uuid} {run run' : Run} {event : RunEvent}
    (hseq : run'.eventSequence = run.eventSequence + 1) :
    runRecord (events.insert (runId, run.eventSequence + 1) event) runId run' =
      (runRecord events runId run).append run'.state event.payload.state := by
  unfold runRecord Record.append
  rw [Record.mk.injEq]
  refine ⟨rfl, hseq, funext fun n => ?_⟩
  by_cases hn : n = run.eventSequence + 1
  · subst hn
    rw [AList.lookup_insert, Function.update_self]
    rfl
  · rw [AList.lookup_insert_ne (fun h => hn (congrArg Prod.snd h)), Function.update_of_ne hn]

/-- Columns outside the journal may change freely. -/
theorem RunLog.touch (h : RunLog nextId runs events) {runId : Uuid} {run : Run} (run' : Run)
    (hrun : runs.lookup runId = some run) (hstate : run'.state = run.state)
    (hseq : run'.eventSequence = run.eventSequence)
    (horg : run'.organizationId = run.organizationId)
    (hkey : run'.idempotencyKey = run.idempotencyKey)
    (hasked : run'.cancellationRequestedAt ≠ none → run.state = .cancelling ∨ run.state = .cancelled) :
    RunLog nextId (runs.insert runId run') events where
  fresh := h.fresh.insert (h.fresh _ _ hrun) _
  consistent hid := by
    obtain ⟨rfl, rfl⟩ | ⟨-, hid⟩ := Table.lookup_insert_cases hid
    · have hc := h.consistent hrun
      unfold runRecord at hc ⊢
      rw [hstate, hseq]
      exact hc
    · exact h.consistent hid
  owned {id n event} hevent := by
    obtain ⟨owner, howner, ho⟩ := h.owned hevent
    by_cases hid : id = runId
    · subst hid
      rw [hrun] at howner
      cases howner
      exact ⟨run', AList.lookup_insert _, ho.trans horg.symm⟩
    · exact ⟨owner, by rw [AList.lookup_insert_ne hid]; exact howner, ho⟩
  asked hid hask := by
    obtain ⟨rfl, rfl⟩ | ⟨-, hid⟩ := Table.lookup_insert_cases hid
    · rw [hstate]; exact hasked hask
    · exact h.asked hid hask
  keys hid hid' ho hk := by
    obtain ⟨rfl, rfl⟩ | ⟨-, hold⟩ := Table.lookup_insert_cases hid <;>
      obtain ⟨rfl, rfl⟩ | ⟨-, hold'⟩ := Table.lookup_insert_cases hid'
    · rfl
    · exact h.keys hrun hold' (horg ▸ ho) (hkey ▸ hk)
    · exact h.keys hold hrun (horg ▸ ho) (hkey ▸ hk)
    · exact h.keys hold hold' ho hk

/-- One run gets one event: the next of its journal. -/
theorem RunLog.append (h : RunLog nextId runs events) {runId : Uuid} {run : Run} (run' : Run)
    {event : RunEvent} (hrun : runs.lookup runId = some run)
    (hseq : run'.eventSequence = run.eventSequence + 1)
    (hstep : Journal.Step Moves noting (runRecord events runId run)
      ((runRecord events runId run).append run'.state event.payload.state))
    (horg : run'.organizationId = run.organizationId)
    (hkey : run'.idempotencyKey = run.idempotencyKey)
    (hevent : event.organizationId = run.organizationId)
    (hasked : run'.cancellationRequestedAt ≠ none →
      run'.state = .cancelling ∨ run'.state = .cancelled) :
    RunLog nextId (runs.insert runId run')
      (events.insert (runId, run.eventSequence + 1) event) where
  fresh := h.fresh.insert (h.fresh _ _ hrun) _
  consistent hid := by
    obtain ⟨rfl, rfl⟩ | ⟨hne, hid⟩ := Table.lookup_insert_cases hid
    · rw [runRecord_append hseq]
      exact (h.consistent hrun).step hstep
    · rw [runRecord_insert_ne _ hne]
      exact h.consistent hid
  owned {id n e} he := by
    obtain ⟨hk, rfl⟩ | ⟨-, he⟩ := Table.lookup_insert_cases he
    · cases hk
      exact ⟨run', AList.lookup_insert _, hevent.trans horg.symm⟩
    · obtain ⟨owner, howner, ho⟩ := h.owned he
      by_cases hid : id = runId
      · subst hid
        rw [hrun] at howner
        cases howner
        exact ⟨run', AList.lookup_insert _, ho.trans horg.symm⟩
      · exact ⟨owner, by rw [AList.lookup_insert_ne hid]; exact howner, ho⟩
  asked hid hask := by
    obtain ⟨rfl, rfl⟩ | ⟨-, hid⟩ := Table.lookup_insert_cases hid
    · exact hasked hask
    · exact h.asked hid hask
  keys hid hid' ho hk := by
    obtain ⟨rfl, rfl⟩ | ⟨-, hold⟩ := Table.lookup_insert_cases hid <;>
      obtain ⟨rfl, rfl⟩ | ⟨-, hold'⟩ := Table.lookup_insert_cases hid'
    · rfl
    · exact h.keys hrun hold' (horg ▸ ho) (hkey ▸ hk)
    · exact h.keys hold hrun (horg ▸ ho) (hkey ▸ hk)
    · exact h.keys hold hold' ho hk

/-- A run enters under a new identifier and a new idempotency key, with its
submission event. -/
theorem RunLog.enter (h : RunLog nextId runs events) {run : Run} {event : RunEvent}
    (hstate : run.state = .queued) (hseq : run.eventSequence = 1)
    (hasked : run.cancellationRequestedAt = none)
    (hevent : event.organizationId = run.organizationId)
    (hkey : ∀ {id other}, runs.lookup id = some other → other.organizationId = run.organizationId →
      other.idempotencyKey ≠ run.idempotencyKey) :
    RunLog (nextId + 1) (runs.insert nextId run) (events.insert (nextId, 1) event) where
  fresh := h.fresh.draw _
  consistent {id r} hid := by
    obtain ⟨rfl, rfl⟩ | ⟨hne, hid⟩ := Table.lookup_insert_cases hid
    · have hnone : ∀ n, events.lookup (id, n) = none := by
        intro n
        cases he : events.lookup (id, n) with
        | none => rfl
        | some e =>
          obtain ⟨owner, howner, -⟩ := h.owned he
          exact absurd (h.fresh _ _ howner) (Nat.lt_irrefl _)
      have hopen : runRecord (events.insert (id, 1) event) id r =
          Record.opened .queued event.payload.state := by
        unfold runRecord Record.opened
        rw [Record.mk.injEq]
        refine ⟨hstate, hseq, funext fun n => ?_⟩
        by_cases hn : n = 1
        · subst hn
          rw [AList.lookup_insert, Function.update_self]
          rfl
        · rw [AList.lookup_insert_ne (fun h => hn (congrArg Prod.snd h)),
            Function.update_of_ne hn, hnone]
          rfl
      rw [hopen]
      exact consistent_opened _
    · rw [runRecord_insert_ne _ hne]
      exact h.consistent hid
  owned {id n e} he := by
    obtain ⟨hk, rfl⟩ | ⟨-, he⟩ := Table.lookup_insert_cases he
    · cases hk
      exact ⟨run, AList.lookup_insert _, hevent⟩
    · obtain ⟨owner, howner, ho⟩ := h.owned he
      have hid : id ≠ nextId := fun hid => Nat.lt_irrefl _ (hid ▸ h.fresh _ _ howner)
      exact ⟨owner, by rw [AList.lookup_insert_ne hid]; exact howner, ho⟩
  asked hid hask := by
    obtain ⟨rfl, rfl⟩ | ⟨-, hid⟩ := Table.lookup_insert_cases hid
    · exact absurd hasked hask
    · exact h.asked hid hask
  keys hid hid' ho hk := by
    obtain ⟨rfl, rfl⟩ | ⟨-, hold⟩ := Table.lookup_insert_cases hid <;>
      obtain ⟨rfl, rfl⟩ | ⟨-, hold'⟩ := Table.lookup_insert_cases hid'
    · rfl
    · exact absurd hk.symm (hkey hold' ho.symm)
    · exact absurd hk (hkey hold ho)
    · exact h.keys hold hold' ho hk

/-- Whole runs go, each with exactly its events. -/
theorem RunLog.erase (h : RunLog nextId runs events) (gone : Run → Bool)
    (lost : Uuid × Nat → RunEvent → Bool)
    (hlost : ∀ {id n event run}, events.lookup (id, n) = some event → runs.lookup id = some run →
      lost (id, n) event = gone run) :
    RunLog nextId (runs.deleteWhere fun _ run => gone run) (events.deleteWhere lost) where
  fresh := h.fresh.deleteWhere _
  consistent {id run} hid := by
    obtain ⟨hrun, hkept⟩ := Table.lookup_deleteWhere.mp hid
    have hsame : runRecord (events.deleteWhere lost) id run = runRecord events id run := by
      unfold runRecord
      rw [Record.mk.injEq]
      refine ⟨rfl, rfl, funext fun n => ?_⟩
      cases he : events.lookup (id, n) with
      | some e =>
        have hl : lost (id, n) e = false := (hlost he hrun).trans hkept
        rw [Table.lookup_deleteWhere.mpr ⟨he, hl⟩]
      | none =>
        cases hd : (events.deleteWhere lost).lookup (id, n) with
        | none => rfl
        | some e => rw [(Table.lookup_deleteWhere.mp hd).1] at he; cases he
    rw [hsame]
    exact h.consistent hrun
  owned he := by
    obtain ⟨he, hl⟩ := Table.lookup_deleteWhere.mp he
    obtain ⟨owner, howner, ho⟩ := h.owned he
    exact ⟨owner, Table.lookup_deleteWhere.mpr ⟨howner, (hlost he howner).symm.trans hl⟩, ho⟩
  asked hid hask := h.asked (Table.lookup_deleteWhere.mp hid).1 hask
  keys hid hid' ho hk :=
    h.keys (Table.lookup_deleteWhere.mp hid).1 (Table.lookup_deleteWhere.mp hid').1 ho hk

end CorpusKit
