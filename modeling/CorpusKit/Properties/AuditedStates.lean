import CorpusKit.Properties.Cancellation

/-! # The prior state in the evidence of a cancellation

The audit event of a cancellation is to record the state the run was in before.
Both paths read it from the run after their update, which has been synchronized
onto it: the state they record is the one the run was moved to. -/

namespace CorpusKit

open Transaction Program Interleaving Journal

/-- Event `n` of the run is the event of its cancellation. -/
def Db.CancelledBy (db : Db) (runId : Uuid) (n : Nat) : Prop :=
  ∃ e, db.runEvents.lookup (runId, n) = some e ∧ e.payload.state = some .cancelling

/-- The state the run's events name immediately before event `n`; the first event
stands for the queued run. -/
def Db.StateBefore (db : Db) (runId : Uuid) (run : Run) (n : Nat) (state : RunState) : Prop :=
  ∃ m, Latest .queued (runRecord db.runEvents runId run).entry n m state

/-- The audit event records the state before. -/
def AuditEvent.RecordsPrior (event : AuditEvent) (state : RunState) : Prop :=
  event.details = [("prior_state", .text state.value)]

theorem RunState.value_injective : Function.Injective RunState.value := by
  intro s t h
  cases s <;> cases t <;> first | rfl | simp [RunState.value] at h

theorem moves_to_cancelling {s : RunState} (h : Moves s .cancelling) : s ≠ .cancelling := by
  rintro rfl
  revert h
  decide

section Events

variable {db : Db} {runId : Uuid} {run : Run} {n : Nat}

theorem Db.CancelledBy.named (h : db.CancelledBy runId n) (hn : n ≠ 1) :
    named .queued (runRecord db.runEvents runId run).entry n = some .cancelling := by
  obtain ⟨e, he, hstate⟩ := h
  rw [Journal.named, if_neg hn]
  simp [runRecord, he, hstate]

/-- A cancellation leaves a state that is not cancelling. -/
theorem Db.CancelledBy.moves (hi : db.Inv) (hrun : db.runs.lookup runId = some run)
    (h : db.CancelledBy runId n) {state : RunState} (hstate : db.StateBefore runId run n state) :
    state ≠ .cancelling := by
  obtain ⟨m, hlatest⟩ := hstate
  have hn : n ≠ 1 := by
    have := hlatest.pos
    have := hlatest.before
    omega
  have hnamed : Journal.named .queued (runRecord db.runEvents runId run).entry n = _ := h.named hn
  obtain ⟨e, he, -⟩ := h
  exact moves_to_cancelling
    ((hi.log.consistent hrun).moves_from (hi.log.last hrun he) hlatest hnamed)

theorem Db.CancelledBy.stateBefore (run : Run) (hn : 1 < n) :
    ∃ state, db.StateBefore runId run n state := by
  obtain ⟨k, rfl⟩ : ∃ k, n = k + 2 := ⟨n - 2, by omega⟩
  obtain ⟨m, state, hlatest⟩ :=
    exists_latest RunState.queued (runRecord db.runEvents runId run).entry k
  exact ⟨state, m, hlatest⟩

end Events

/-- In every run of the services, the audit event of a cancellation never records
the state before it, although the run's events show one: whenever the run still
exists, its events have a cancellation with a state before it, and for each such
pair the recorded state is another. -/
theorem cancellation_prior_state_wrong {dep : Deployment} {memberships : List Membership}
    {cfg : ServiceConfig dep} (h : Reachable free (World.initial memberships) cfg)
    {key : Uuid × Nat} {event : AuditEvent} {run : Run}
    (hevent : cfg.world.db.auditEvents.lookup key = some event)
    (hcancel : event.action = .runCancellationRequested)
    (hrun : cfg.world.db.runs.lookup event.resourceId = some run) :
    (∃ n state, cfg.world.db.CancelledBy event.resourceId n ∧
      cfg.world.db.StateBefore event.resourceId run n state) ∧
    ∀ n state, cfg.world.db.CancelledBy event.resourceId n →
      cfg.world.db.StateBefore event.resourceId run n state → ¬ event.RecordsPrior state := by
  have hi := reachable_inv h
  refine ⟨?_, fun n state hby hbefore hrecords => ?_⟩
  · obtain ⟨n, e, hn, he, hstate⟩ := hi.cancellations.shown hevent hcancel hrun
    obtain ⟨state, hbefore⟩ := Db.CancelledBy.stateBefore run hn
    exact ⟨n, state, ⟨e, he, hstate⟩, hbefore⟩
  · have hrecorded := hi.cancellations.recorded hevent hcancel
    have hsame : state.value = RunState.cancelling.value := by
      have hdetails := hrecords.symm.trans hrecorded
      simpa using hdetails
    exact hby.moves hi.db hrun hbefore (RunState.value_injective hsame)

/-! ### A queued run -/

/-- The third audit event of the cancelled submission. -/
theorem cancellation_prior_state_wrong_queued :
    ((smallRun cancelledSubmission).map fun cfg =>
      (cfg.world.db.auditEvents.lookup (1, 3)).map AuditEvent.action) =
        some (some .runCancellationRequested) ∧
    ∀ cfg, smallRun cancelledSubmission = some cfg → ∀ event run,
      cfg.world.db.auditEvents.lookup (1, 3) = some event →
      event.action = .runCancellationRequested →
      cfg.world.db.runs.lookup event.resourceId = some run → ∀ n state,
      cfg.world.db.CancelledBy event.resourceId n →
      cfg.world.db.StateBefore event.resourceId run n state → ¬ event.RecordsPrior state :=
  ⟨by decide +kernel, fun _ h _ _ hevent hcancel hrun =>
    (cancellation_prior_state_wrong (smallRun_reachable h) hevent hcancel hrun).2⟩

/-- A queued run is said to have been cancelling. -/
theorem cancellation_of_queued_records_cancelling :
    ((smallRun cancelledSubmission).map fun cfg =>
      (cfg.world.db.runEvents.lookup (1, 1)).map fun e => e.payload.state) =
        some (some (some .queued)) ∧
    ((smallRun cancelledSubmission).map fun cfg =>
      (cfg.world.db.runEvents.lookup (1, 2)).map fun e => e.payload.state) =
        some (some (some .cancelling)) ∧
    ((smallRun cancelledSubmission).map fun cfg =>
      (cfg.world.db.auditEvents.lookup (1, 3)).map fun e => (e.resourceId, e.details)) =
        some (some (1, [("prior_state", .text "cancelling")])) := by
  decide +kernel

end CorpusKit
