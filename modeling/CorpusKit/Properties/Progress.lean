import CorpusKit.System.Obligations

/-! # Progress is monotonic

A report is compared with the latest one before the compare-and-set of the run.
As long as the run is at the number that was read, it has the events it had
when the latest was read, so a report that was not stale then is not stale
where it is written. -/

namespace CorpusKit

open Transaction Program Interleaving

variable {dep : Deployment} {calls : Calls}

/-- The call has changed nothing. -/
def Idle (past : List (Event (system dep calls))) : Prop := ∀ e ∈ past, e.after.db = e.before.db

/-- The latest operation of the call appended one report to the run, and nothing
before it changed anything. -/
def Recorded (reference : RunWorkflowReference) (payload : EventPayload)
    (past : List (Event (system dep calls))) : Prop :=
  ∃ e earlier run, past = e :: earlier ∧ Idle earlier ∧
    e.before.db.run? reference.organizationId reference.runId = some run ∧
    e.before.db.runEvents.lookup (reference.runId, run.eventSequence + 1) = none ∧
    e.after.db = DurableRunStore.reported e.before.db reference run payload

/-- What the history of a call that answered looks like. -/
def ProgressAnswer (dep : Deployment) : (c : ServiceCall) → c.Value →
    List (Event (system dep (services dep))) → Prop
  | .recordProgress reference activityAttempt progress, true, past =>
    Recorded reference (DurableRunStore.progressPayload activityAttempt progress) past
  | .recordProgress .., false, past => Idle past
  | _, _, _ => True

def ProgressFailure (dep : Deployment) : ServiceCall → List (Event (system dep (services dep))) → Prop
  | .recordProgress .., past => Idle past
  | _, _ => True

theorem Idle.cons {past : List (Event (system dep calls))} (h : Idle past)
    {e : Event (system dep calls)} (he : e.after.db = e.before.db) : Idle (e :: past) := by
  intro e' he'
  rcases List.mem_cons.mp he' with rfl | hold
  · exact he
  · exact h e' hold

namespace DurableRunStore

theorem recordProgress_answers (reference : RunWorkflowReference) (activityAttempt : Nat)
    (progress : DurableRunProgress) {w : World} (hi : w.Inv dep) :
    Sat (paid dep (services dep))
      (fun b past _ => ProgressAnswer dep (.recordProgress reference activityAttempt progress) b past)
      (fun _ past _ => Idle past) (recordProgress reference activityAttempt progress) [] w := by
  have hnil : Idle ([] : List (Event (system dep (services dep)))) := fun e he => nomatch he
  refine Sat.require (fun _ => ?_) fun _ _ _ => hnil
  generalize maxCasAttempts = attempts, ([] : List (Event (system dep (services dep)))) = past at hnil ⊢
  induction attempts generalizing past w with
  | zero => exact Sat.raise fun _ _ _ => hnil
  | succ attempts ih =>
    refine sat_read_event (C := paid dep (services dep)) hi (fun _ _ => trivial)
      (fun _ run _ u _ _ _ _ _ hiu => ?_) fun _ _ _ _ _ _ _ _ _ => hnil.cons rfl
    split
    · refine sat_read_event (C := paid dep (services dep)) hiu (fun _ _ => trivial)
        (fun _ latest _ v _ _ _ _ _ hiv => ?_) fun _ _ _ _ _ _ _ _ _ => (hnil.cons rfl).cons rfl
      refine Sat.found (fun stale _ => ?_) fun _ _ _ => (hnil.cons rfl).cons rfl
      cases stale with
      | true => exact Sat.ret fun _ _ _ => (hnil.cons rfl).cons rfl
      | false =>
        refine sat_write_event (C := paid dep (services dep)) hiv (fun _ _ _ _ => trivial)
          (fun x changed db _ _ _ _ hret _ _ hit => ?_)
          fun _ _ _ _ _ _ _ _ => ((hnil.cons rfl).cons rfl).cons rfl
        rcases commitProgress_returns hret with ⟨rfl, rfl⟩ | ⟨rfl, run', hrow, -, -, hfree, rfl⟩
        · exact ih hit _ (((hnil.cons rfl).cons rfl).cons rfl)
        · exact Sat.ret fun _ _ _ => ⟨_, _, run', rfl, (hnil.cons rfl).cons rfl, hrow, hfree, rfl⟩
    · exact Sat.ret fun _ _ _ => hnil.cons rfl

end DurableRunStore

theorem progressAnswer_sat (c : ServiceCall) {w : World} (hi : w.Inv dep) :
    Sat (paid dep (services dep)) (fun a past _ => ProgressAnswer dep c a past)
      (fun _ past _ => ProgressFailure dep c past) (c.prog dep) [] w := by
  cases c with
  | recordProgress reference activityAttempt progress =>
    exact DurableRunStore.recordProgress_answers reference activityAttempt progress hi
  | _ => exact Sat.free (fun _ _ _ _ => trivial) _ _ _

/-! ## The law -/

section Law

variable {memberships : List Membership} {cfg : ServiceConfig dep}

/-- A finished call of `record_progress` has the history its answer stands for. -/
theorem progressAnswers (h : Reachable free (World.initial memberships) cfg)
    {j : Job (system dep (services dep))} (hj : j ∈ cfg.jobs) :
    (∀ a, j.Returned a → ProgressAnswer dep j.call a j.history) ∧
      ∀ e, j.Raised e → ProgressFailure dep j.call j.history := by
  obtain ⟨hi, hjobs⟩ := (paid dep (services dep)).sound (fun c a past _ => ProgressAnswer dep c a past)
    (fun c _ past _ => ProgressFailure dep c past) (fun _ hG => hG.2.2)
    (fun c _ hi => progressAnswer_sat c hi) (lawful_reachable h) (World.inv_initial dep memberships)
  exact ⟨fun a ha => (hjobs j hj _ ha).returned rfl hi, fun e he => (hjobs j hj _ he).raised rfl hi⟩

/-- In every run of the services, the progress reports of a run are strictly increasing
in the order of their events, and lie between the start of the run and its next change
of state; and `record_progress` answers `true` exactly when it has appended one report. -/
theorem progress_monotonic (h : Reachable free (World.initial memberships) cfg) :
    (∀ id n m e e', cfg.world.db.runEvents.lookup (id, n) = some e → e.isProgress →
      cfg.world.db.runEvents.lookup (id, m) = some e' → e'.isProgress → n < m →
        e.payload.Before e'.payload) ∧
    (∀ id n e, cfg.world.db.runEvents.lookup (id, n) = some e → e.isProgress →
      ∃ s start, cfg.world.db.runEvents.lookup (id, s) = some start ∧ start.isStart ∧ s < n ∧
        (∀ s' start', cfg.world.db.runEvents.lookup (id, s') = some start' → start'.isStart →
          s' = s) ∧
        ∀ m e', s < m → m < n → cfg.world.db.runEvents.lookup (id, m) = some e' →
          e'.payload.state = none) ∧
    ∀ reference activityAttempt progress history,
      (∀ b : Bool, (⟨.recordProgress reference activityAttempt progress, some (.ret b), history⟩ :
          Job (system dep (services dep))) ∈ cfg.jobs →
        if b = true then
          Recorded reference (DurableRunStore.progressPayload activityAttempt progress) history
        else Idle history) ∧
      ∀ error, (⟨.recordProgress reference activityAttempt progress, some (.raise error), history⟩ :
          Job (system dep (services dep))) ∈ cfg.jobs → Idle history := by
  have hi := (reachable_inv h).progress
  refine ⟨fun id n m e e' he hp he' hp' hlt => hi.ordered he hp he' hp' hlt, fun id n e he hp => ?_,
    fun reference activityAttempt progress history => ⟨fun b hj => ?_, fun error hj => ?_⟩⟩
  · obtain ⟨s, start, hs, hstart, hlt, hquiet⟩ := hi.within he hp
    exact ⟨s, start, hs, hstart, hlt, fun s' start' hs' hstart' => hi.once hs' hstart' hs hstart,
      hquiet⟩
  · have hanswer := (progressAnswers h hj).1 b rfl
    cases b with
    | true => exact hanswer
    | false => exact hanswer
  · exact (progressAnswers h hj).2 error rfl

end Law

def smallAccepted : DurableRunProgress :=
  ⟨3, .candidateAccepted, some 3, some 4, some (some (1 / 2)), some 2⟩

/-- Two reports of a started run, of call 4 and of call 5, and a repetition of the second. -/
def reportedSubmission : List (Move Small) :=
  smallSubmission ++ .start (ServiceCall.beginExecution smallReference) :: acts Small 3 8 ++
    .start (ServiceCall.recordProgress smallReference 1
      ⟨0, .validating, none, none, none, none⟩) :: acts Small 4 3 ++
    .start (ServiceCall.recordProgress smallReference 1 smallAccepted) :: acts Small 5 3 ++
    .start (ServiceCall.recordProgress smallReference 1 smallAccepted) :: acts Small 6 2

theorem progress_monotonic_twice :
    (smallRun reportedSubmission).map (fun cfg =>
      cfg.world.db.runEvents.rows.map fun e => (e.1, e.2.payload.mark)) =
        some [((1, 5), some (1, 3)), ((1, 4), some (1, 0)), ((1, 3), none), ((1, 2), none),
          ((1, 1), none)] ∧
    ∀ cfg, smallRun reportedSubmission = some cfg → ∀ e e',
      cfg.world.db.runEvents.lookup (1, 4) = some e → e.isProgress →
      cfg.world.db.runEvents.lookup (1, 5) = some e' → e'.isProgress →
        e.payload.Before e'.payload :=
  ⟨by decide +kernel, fun _ h e e' he hp he' hp' =>
    (progress_monotonic (smallRun_reachable h)).1 1 4 5 e e' he hp he' hp' (by omega)⟩

end CorpusKit
