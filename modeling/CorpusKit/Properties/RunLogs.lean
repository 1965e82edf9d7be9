import CorpusKit.Properties.Cancellation

/-! # The event log of a run and its row

Every service that moves a run writes its row and one event in one transaction.
Over any run of the services the two tell the same: the events are numbered
without a gap up to the number in the row, the states they name are a path of the
declared transitions from `queued` to the state in the row, and a run that has
come to an end gets no more of either. -/

namespace CorpusKit

open Transaction Program Interleaving Journal

/-- The states the run's events name, in the order of their numbers; the
submission event stands for the queued run. -/
def Db.statePath (db : Db) (runId : Uuid) (run : Run) : List RunState :=
  Journal.path .queued (runRecord db.runEvents runId run).entry run.eventSequence

/-- The events of a run agree with its row. -/
structure Db.LogAgrees (db : Db) (runId : Uuid) (run : Run) : Prop where
  numbered : ∀ n, (db.runEvents.lookup (runId, n)).isSome ↔ 1 ≤ n ∧ n ≤ run.eventSequence
  started : (db.statePath runId run).head? = some .queued
  declared : (db.statePath runId run).IsChain Moves
  current : (db.statePath runId run).getLast? = some run.state

theorem Db.Inv.logAgrees {db : Db} (hi : db.Inv) {runId : Uuid} {run : Run}
    (hrun : db.runs.lookup runId = some run) : db.LogAgrees runId run := by
  have hc := hi.log.consistent hrun
  refine ⟨fun n => ?_, hc.started, hc.legal, hc.current⟩
  have hdense := hc.dense n
  simpa [runRecord] using hdense

/-- The row of a run that has come to an end is never moved again. -/
theorem Db.Later.ended {db db' : Db} (hl : db.Later db') (hi : db.Inv) {runId : Uuid}
    {run run' : Run} (hrun : db.runs.lookup runId = some run)
    (hend : isTerminal run.state = true) (hrun' : db'.runs.lookup runId = some run') :
    run'.state = run.state ∧ run'.eventSequence = run.eventSequence := by
  obtain ⟨old, hold, hlater⟩ := hl.runs runId run' hrun' (hi.log.fresh _ _ hrun)
  rw [hrun] at hold
  cases hold
  exact ⟨hlater.state hend, hlater.final hend⟩

/-- In every reachable state the log of a run agrees with its row, and whatever the
services do afterwards, a run that has come to an end keeps its state and the
number of its latest event. -/
theorem run_log_agrees {dep : Deployment} {memberships : List Membership}
    {cfg : ServiceConfig dep} (h : Reachable free (World.initial memberships) cfg)
    {runId : Uuid} {run : Run} (hrun : cfg.world.db.runs.lookup runId = some run) :
    cfg.world.db.LogAgrees runId run ∧
    (isTerminal run.state = true → ∀ cfg', Relation.ReflTransGen (Step free) cfg cfg' →
      ∀ run', cfg'.world.db.runs.lookup runId = some run' →
        run'.state = run.state ∧ run'.eventSequence = run.eventSequence) := by
  have hi := reachable_inv h
  refine ⟨hi.db.logAgrees hrun, ?_⟩
  intro hend cfg' hsteps run' hrun'
  have hlater := run_later h hsteps
  exact hlater.db.ended hi.db hrun hend hrun'

/-- The run of a cancelled submission, after its second event. -/
theorem run_log_agrees_cancelled :
    ((smallRun cancelledSubmission).map fun cfg =>
      (cfg.world.db.runs.lookup 1).map fun run => (run.state, run.eventSequence)) =
        some (some (.cancelling, 2)) ∧
    ∀ cfg, smallRun cancelledSubmission = some cfg → ∀ run,
      cfg.world.db.runs.lookup 1 = some run → cfg.world.db.LogAgrees 1 run :=
  ⟨by decide +kernel, fun _ h _ hrun => (run_log_agrees (smallRun_reachable h) hrun).1⟩

end CorpusKit
