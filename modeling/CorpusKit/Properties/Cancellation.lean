import CorpusKit.System.Obligations

/-! # An accepted cancellation wins

A cancellation request is recorded in a column that only leads to `cancelling`
and `cancelled`, and a run in one of these two states never leaves them. -/

namespace CorpusKit

open Transaction Program Interleaving

/-- The state of a run whose cancellation is under way or done. -/
def RunState.isCancelled (state : RunState) : Prop := state = .cancelling ∨ state = .cancelled

/-- As long as the run exists, its cancellation is under way or done. -/
def Db.Cancels (db : Db) (runId : Uuid) : Prop :=
  runId < db.nextId ∧ ∀ run, db.runs.lookup runId = some run → run.state.isCancelled

theorem Db.Cancels.later {db db' : Db} {runId : Uuid} (h : db.Cancels runId)
    (hl : db.Later db') : db'.Cancels runId := by
  refine ⟨Nat.lt_of_lt_of_le h.1 hl.next, fun run' hrun' => ?_⟩
  obtain ⟨run, hrun, hlater⟩ := hl.runs runId run' hrun' h.1
  exact hlater.cancelled (h.2 run hrun)

theorem Db.cancels_of_state {db : Db} (hi : db.Inv) {runId : Uuid} {run : Run}
    (hrun : db.runs.lookup runId = some run) (hstate : run.state.isCancelled) :
    db.Cancels runId := by
  refine ⟨hi.log.fresh _ _ hrun, fun run' hrun' => ?_⟩
  rw [hrun] at hrun'
  cases hrun'
  exact hstate

theorem Db.cancels_of_asked {db : Db} (hi : db.Inv) {runId : Uuid} {run : Run}
    (hrun : db.runs.lookup runId = some run) (hasked : run.cancellationRequestedAt ≠ none) :
    db.Cancels runId :=
  db.cancels_of_state hi hrun (hi.log.asked hrun hasked)

/-- A cancelled run has no result. -/
theorem Db.Cancels.no_result {db : Db} {runId : Uuid} (h : db.Cancels runId) (hl : db.Lifecycle)
    {run : Run} (hrun : db.runs.lookup runId = some run) {artifactId : Uuid} {a : Artifact}
    (ha : db.artifacts.lookup artifactId = some a) (hkind : a.kind = .runResult) :
    a.runId ≠ some runId := by
  intro hid
  obtain ⟨owner, howner, -, hsucceeded⟩ := hl.results ha hkind
  rw [hid] at howner
  cases howner
  have hstate := hsucceeded run hrun
  rcases h.2 run hrun with hc | hc <;> rw [hstate] at hc <;> cases hc

/-! ## The cancel branch of an adoption -/

/-- The event after the latest one is free. -/
theorem RunLog.free {db : Db} (h : RunLog db.nextId db.runs db.runEvents) {runId : Uuid}
    {run : Run} (hrun : db.runs.lookup runId = some run) :
    db.runEvents.lookup (runId, run.eventSequence + 1) = none := by
  have hdense := (h.consistent hrun).dense (run.eventSequence + 1)
  simp only [runRecord, Option.isSome_map] at hdense
  cases hevent : db.runEvents.lookup (runId, run.eventSequence + 1) with
  | none => rfl
  | some event =>
    rw [hevent] at hdense
    have := (hdense.mp rfl).2
    omega

theorem addRunEvent_free {db : Db} {org runId : Uuid} {sequence : Nat} {eventType : String}
    {payload : EventPayload} (h : db.runEvents.lookup (runId, sequence) = none) :
    Returns (addRunEvent org runId sequence eventType payload) db () { db with
      runEvents := db.runEvents.insert (runId, sequence) ⟨org, eventType, payload⟩ } := by
  unfold addRunEvent Transaction.require
  refine Returns.seq (a := db) (t := db) rfl ?_
  rw [if_pos h]
  rfl

/-- The row lock finds a run that may be cancelled: nothing in `_cancel_locked` raises. -/
theorem DurableRunStore.cancelLocked_total {db : Db} (hi : db.Inv) {runId : Uuid} {run : Run}
    (hrun : db.runs.lookup runId = some run) (hstate : run.state.isCancelled) (now : Instant) :
    ∃ cancelled db', Returns (cancelLocked runId run now) db cancelled db' := by
  have hobserve : observeCancellation runId run = pure run := if_pos hstate
  unfold cancelLocked
  rw [hobserve, pure_bind]
  unfold finishCancellation
  rcases hstate with hcancelling | hcancelled
  · rw [if_pos hcancelling]
    have hmove : Returns (ensureTransition run.state .cancelled : DbTx Unit) db () db := by
      unfold ensureTransition
      rw [hcancelling]
      rfl
    exact ⟨true, _, hmove.seq (Returns.seq (a := ()) rfl
      (Returns.seq (addRunEvent_free (hi.log.free hrun)) rfl))⟩
  · rw [if_neg (by rw [hcancelled]; decide)]
    exact ⟨false, _, Returns.seq (a := ()) rfl rfl⟩

/-! ## Accepted requests -/

namespace JobControlPlane

variable {dep : Deployment} {calls : Calls}

theorem activeRun_row {db db' : Db} {org runId : Uuid} {run : Run}
    (h : Returns (activeRun org runId) db run db') : db.runs.lookup runId = some run := by
  exact (Db.run?_some (activeRun_returns h).1).1

/-- Whoever got an answer from `request_cancellation` asked for a run that ends cancelled. -/
theorem requestCancellationLoop_cancels (who : JobActor) (userId runId : Uuid) (attempts : Nat)
    {past : List (Event (system dep calls))} {w : World} (hi : w.Inv dep) :
    Sat (paid dep calls) (fun _ _ u => u.db.Cancels runId) (fun _ _ _ => True)
      (requestCancellationLoop who userId runId attempts) past w := by
  induction attempts generalizing past w with
  | zero => exact Sat.raise fun _ _ _ => trivial
  | succ attempts ih =>
    refine sat_read (C := paid dep calls) hi (fun _ _ => trivial)
      (fun v run db u _ _ hiv hret hu hiu => ?_) fun _ _ _ _ _ _ _ _ _ => trivial
    split
    · next hcancelling =>
      have hcancels := (v.db.cancels_of_state hiv.db (activeRun_row hret) (.inl hcancelling)).later hu.db
      refine sat_read (C := paid dep calls) hiu (fun _ _ => trivial)
        (fun x state db y _ hx _ _ hy _ => ?_) fun _ _ _ _ _ _ _ _ _ => trivial
      exact Sat.ret fun z hz _ => hcancels.later (((hx.trans hy).trans hz).db)
    · refine sat_look (C := paid dep calls) hiu (fun _ => trivial) fun x y _ _ _ _ hiy => ?_
      refine sat_write (C := paid dep calls) hiy (fun _ _ _ _ => trivial)
        (fun z snapshot db t _ _ hiz _ hret _ ht hit => ?_) fun _ _ _ _ _ _ _ _ _ => trivial
      cases snapshot with
      | none => exact ih hit
      | some snapshot =>
        have hcommit : Changes {} z.db db ∧ _ := commitCancellation_changes hiz.db hret
        obtain ⟨hc, ⟨hnone, -⟩ | ⟨-, run', hrun', -, -, hruns⟩⟩ := hcommit
        · cases hnone
        · have hcancels : db.Cancels runId := by
            have hrow := congrArg (AList.lookup runId) hruns
            rw [AList.lookup_insert] at hrow
            exact db.cancels_of_state (hc.inv hiz.db) hrow (.inl rfl)
          exact Sat.ret fun s hs _ => hcancels.later (ht.trans hs).db

theorem requestCancellation_cancels (who : JobActor) (runId : Uuid)
    {past : List (Event (system dep calls))} {w : World} (hi : w.Inv dep) :
    Sat (paid dep calls) (fun _ _ u => u.db.Cancels runId) (fun _ _ _ => True)
      (requestCancellation who runId) past w := by
  refine sat_read (C := paid dep calls) hi (fun _ _ => trivial)
    (fun v user db u _ _ _ _ _ hiu => ?_) fun _ _ _ _ _ _ _ _ _ => trivial
  exact Sat.require (fun _ => requestCancellationLoop_cancels _ _ _ _ hiu) fun _ _ _ => trivial

end JobControlPlane

/-- What a cancellation request guarantees when it answers. -/
def CancellationAnswer : (c : ServiceCall) → c.Value → World → Prop
  | .requestCancellation _ runId, _, w => w.db.Cancels runId
  | _, _, _ => True

theorem cancellationAnswer_sat {dep : Deployment} (c : ServiceCall) (w : World)
    (hi : w.Inv dep) : Sat (paid dep (services dep)) (fun a _ u => CancellationAnswer c a u)
      (fun _ _ _ => True) (c.prog dep) [] w := by
  cases c with
  | requestCancellation who runId => exact JobControlPlane.requestCancellation_cancels who runId hi
  | _ => exact Sat.free (fun _ _ _ _ => trivial) _ _ _

/-! ## The law -/

section Law

variable {dep : Deployment} {memberships : List Membership}

/-- In every run of the services, an accepted cancellation wins: a run that was
asked to cancel is `cancelling` or `cancelled`, stays so and never gets a result,
nothing in the cancel branch of an adoption raises, and a request that was
answered concerns such a run. -/
theorem accepted_cancellation_wins {cfg cfg' : ServiceConfig dep}
    (h : Reachable free (World.initial memberships) cfg)
    (hrun : Relation.ReflTransGen (Step free) cfg cfg') :
    (∀ id run, cfg.world.db.runs.lookup id = some run → run.cancellationRequestedAt ≠ none →
      run.state.isCancelled ∧ ∀ run', cfg'.world.db.runs.lookup id = some run' →
        run'.state.isCancelled ∧ ∀ artifactId a,
          cfg'.world.db.artifacts.lookup artifactId = some a → a.kind = .runResult →
            a.runId ≠ some id) ∧
    (∀ id run now, cfg.world.db.runs.lookup id = some run →
      run.state.isCancelled ∨ run.cancellationRequestedAt ≠ none →
        ∃ cancelled db, Returns (DurableRunStore.cancelLocked id run now) cfg.world.db cancelled db) ∧
    (∀ j ∈ cfg.jobs, ∀ who id, j.call = .requestCancellation who id →
      (∃ a, j.Returned a) → ∀ run', cfg'.world.db.runs.lookup id = some run' →
        run'.state.isCancelled) := by
  have hi := reachable_inv h
  have hi' := reachable_inv (h.trans hrun)
  have hlater := (run_later h hrun).db
  refine ⟨fun id run hrow hasked => ?_, fun id run now hrow hstate => ?_,
    fun j hj who id hcall hanswer run' hrow' => ?_⟩
  · have hcancels := Db.cancels_of_asked hi.db hrow hasked
    refine ⟨hcancels.2 run hrow, fun run' hrow' => ?_⟩
    have hcancels' := hcancels.later hlater
    exact ⟨hcancels'.2 run' hrow', fun artifactId a ha hkind =>
      hcancels'.no_result hi'.lifecycle hrow' ha hkind⟩
  · have hcancels : run.state.isCancelled := hstate.elim (fun hc => hc) fun hasked => hi.db.log.asked hrow hasked
    exact DurableRunStore.cancelLocked_total hi.db hrow hcancels now
  · obtain ⟨a, ha⟩ := hanswer
    have hcancels := answers_hold CancellationAnswer cancellationAnswer_sat h hj ha
    obtain ⟨call, rest, history⟩ := j
    subst hcall
    exact (Db.Cancels.later hcancels hlater).2 run' hrow'

end Law

/-- A queued run whose owner asks to cancel it. -/
def cancelledSubmission : List (Move Small) :=
  smallSubmission ++ .start (ServiceCall.requestCancellation ⟨"owner", 1, none⟩ 1) :: acts Small 3 4

theorem accepted_cancellation_wins_queued :
    ((smallRun cancelledSubmission).map fun cfg =>
      (cfg.world.db.runs.lookup 1).map fun run => run.cancellationRequestedAt) =
        some (some (some 0)) ∧
    ∀ cfg, smallRun cancelledSubmission = some cfg → ∀ run, cfg.world.db.runs.lookup 1 = some run →
      run.cancellationRequestedAt ≠ none → run.state.isCancelled :=
  ⟨by decide +kernel, fun _ h run hrow hasked =>
    ((accepted_cancellation_wins (smallRun_reachable h) .refl).1 1 run hrow hasked).1⟩

end CorpusKit
