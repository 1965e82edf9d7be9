import CorpusKit.System.Obligations

/-! # How a workflow ends

`complete`, `fail` and `acknowledge_cancellation` decide on a state they read, and the
transition they ask for reads the run again. When somebody moved the run in between, to
a state that the transition does not expect, the call returns that state and the
workflow is over while the run is not. In every other case the run has ended. -/

namespace CorpusKit

open Transaction Program Interleaving

variable {dep : Deployment} {calls : Calls}

/-- The transition a read is made for. -/
def Action.transition? {β : Type} : Action β → Option (RunWorkflowReference × DurableRunStore.Transition)
  | .readFor reference t => some (reference, t)
  | _ => none

def Op.transition? {β : Type} : Op β → Option (RunWorkflowReference × DurableRunStore.Transition)
  | .write action => action.transition?
  | _ => none

def RunWorkflowReference.run? (reference : RunWorkflowReference) (db : Db) : Option Run :=
  db.run? reference.organizationId reference.runId

/-- `_transition` read the run in a state it neither expects nor wants, and that is not
the end of the run: the branch `if run.state not in expected: return run.state`. -/
def Overtaken (reference : RunWorkflowReference) (e : Event (system dep calls)) : Prop :=
  ∃ transition run, Op.transition? e.op = some (reference, transition) ∧
    reference.run? e.before.db = some run ∧ run.state ∉ transition.expected ∧
      run.state ≠ transition.target ∧ isTerminal run.state = false

/-- The run whose workflow a call finishes. -/
def ServiceCall.finishes? : ServiceCall → Option RunWorkflowReference
  | .complete reference _ => some reference
  | .fail reference _ => some reference
  | .acknowledgeCancellation reference => some reference
  | _ => none

/-- The latest operation of the call left the run in this state. -/
def Left (reference : RunWorkflowReference) (s : RunState)
    (past : List (Event (system dep calls))) : Prop :=
  ∃ e earlier run, past = e :: earlier ∧ reference.run? e.after.db = some run ∧ run.state = s

/-- The run had ended when the call performed its latest operation. -/
def Ended (reference : RunWorkflowReference) (past : List (Event (system dep calls))) : Prop :=
  ∃ s, Left reference s past ∧ isTerminal s = true

/-- No read of `_transition` in the call was overtaken. -/
def NeverOvertaken (reference : RunWorkflowReference) (past : List (Event (system dep calls))) : Prop :=
  ∀ e ∈ past, ¬ Overtaken reference e

variable {reference : RunWorkflowReference} {past : List (Event (system dep calls))}

theorem NeverOvertaken.cons (h : NeverOvertaken reference past) {e : Event (system dep calls)}
    (he : ¬ Overtaken reference e) : NeverOvertaken reference (e :: past) := by
  intro e' he'
  rcases List.mem_cons.mp he' with rfl | hold
  · exact he
  · exact h e' hold

theorem Left.unique {s t : RunState} (hs : Left reference s past) (ht : Left reference t past) :
    s = t := by
  obtain ⟨e, earlier, run, rfl, hrun, rfl⟩ := hs
  obtain ⟨e', earlier', run', heq, hrun', rfl⟩ := ht
  cases heq
  rw [hrun] at hrun'
  cases hrun'
  rfl

/-- Only the reads of `_transition` can be overtaken. -/
theorem not_overtaken {e : Event (system dep calls)} (he : Op.transition? e.op = none) :
    ¬ Overtaken reference e := by
  rintro ⟨transition, run, hop, -⟩
  rw [he] at hop
  cases hop

/-- No transition leads back to a draft. -/
theorem moves_not_draft {s : RunState} (h : Relation.ReflTransGen Moves .queued s) :
    s ≠ .draft := by
  rintro rfl
  obtain h | ⟨prior, -, hmove⟩ := Relation.ReflTransGen.cases_tail h
  · cases h
  · revert hmove
    cases prior <;> decide

/-- No run of a consistent log is a draft: its journal starts at `queued`. -/
theorem Db.not_draft {db : Db} (hi : db.Inv) {runId : Uuid} {run : Run}
    (hrun : db.runs.lookup runId = some run) : run.state ≠ .draft := by
  have hc := hi.log.consistent hrun
  have hstarted := hc.started
  have hlegal := hc.legal
  have hcurrent := hc.current
  generalize Journal.path RunState.queued _ _ = states at hstarted hlegal hcurrent
  cases states with
  | nil => cases hstarted
  | cons s states =>
    cases hstarted
    rw [List.getLast?_eq_some_getLast (List.cons_ne_nil _ _), Option.some.injEq] at hcurrent
    have hreached := List.relationReflTransGen_of_exists_isChain_cons states hlegal hcurrent
    exact moves_not_draft hreached

/-! ## The parts of the calls -/

namespace DurableRunStore

/-- A compare-and-set that hits leaves the run in the target of its transition. -/
theorem commitTransition_left {db db' : Db} (hi : db.Inv) {read : Run} {t : Transition}
    {now : Instant} (hread : read.state ∈ t.expected)
    (h : Returns (commitTransition reference read t now) db true db') :
    ∃ run, reference.run? db' = some run ∧ run.state = t.target := by
  obtain ⟨hfalse, -⟩ | ⟨-, run, hrun, horg, -⟩ := commitTransition_returns h
  · cases hfalse
  have hchanges : Changes {} db db' ∧ _ := commitTransition_changes hi hread h
  obtain ⟨-, ⟨hfalse, -⟩ | ⟨-, run', hrun', -, hruns⟩⟩ := hchanges
  · cases hfalse
  rw [hrun] at hrun'
  cases hrun'
  refine ⟨run.moved t.target t.resultSummary t.failureCode run.cancellationRequestedAt,
    Option.filter_eq_some_iff.mpr ⟨?_, beq_iff_eq.mpr horg⟩, rfl⟩
  rw [hruns, AList.lookup_insert]

/-- What a call of the store answers: the state its latest operation left the run in. -/
def Answers (reference : RunWorkflowReference) (C : Contract (system dep calls))
    (post : RunState → List (Event (system dep calls)) → Prop) (p : Service RunState)
    (past : List (Event (system dep calls))) (w : World) : Prop :=
  Sat C (fun s past _ => Left reference s past ∧ post s past) (fun _ _ _ => True) p past w

theorem transitionLoop_answers (t : Transition) (attempts : Nat) {w : World} (hi : w.Inv dep)
    (hpast : NeverOvertaken reference past) :
    Answers reference (paid dep calls)
      (fun s past => NeverOvertaken reference past ↔ s = t.target ∨ isTerminal s = true)
      (transitionLoop reference t attempts) past w := by
  induction attempts generalizing past w with
  | zero => exact Sat.raise fun _ _ _ => trivial
  | succ attempts ih =>
    refine sat_write_event (C := paid dep calls) hi (fun _ _ _ _ => trivial)
      (fun v run db u _ _ _ hret _ _ hiu => ?_) fun _ _ _ _ _ _ _ _ => trivial
    obtain ⟨hrow, -, -, rfl⟩ := readRun_returns hret
    -- the answer of a call that stops here, and what it says about this read
    have hleft : Left reference run.state
        ((⟨.write (.readFor reference t), v, v⟩ : Event (system dep calls)) :: past) :=
      ⟨_, _, run, rfl, hrow, rfl⟩
    have hcons : (run.state ∈ t.expected ∨ run.state = t.target ∨ isTerminal run.state = true) →
        NeverOvertaken reference
          ((⟨.write (.readFor reference t), v, v⟩ : Event (system dep calls)) :: past) := by
      intro hstate
      refine hpast.cons ?_
      rintro ⟨t', run', hop, hrow', hexpected, htarget, hlive⟩
      cases hop
      rw [show v.db.run? reference.organizationId reference.runId = some run' from hrow'] at hrow
      cases hrow
      rcases hstate with h | h | h
      · exact hexpected h
      · exact htarget h
      · rw [h] at hlive; cases hlive
    split
    · next htarget =>
      exact Sat.ret fun _ _ _ => ⟨htarget ▸ hleft, fun _ => .inl rfl, fun _ => hcons (.inr (.inl htarget))⟩
    split
    · next hterminal =>
      exact Sat.ret fun _ _ _ => ⟨hleft, fun _ => .inr hterminal, fun _ => hcons (.inr (.inr hterminal))⟩
    split
    · next hexpected =>
      refine sat_query_event (C := paid dep calls) hiu (fun _ => trivial)
        (fun x now y _ _ _ _ hiy => ?_) fun _ _ _ _ _ _ _ _ => trivial
      refine sat_write_event (C := paid dep calls) hiy (fun _ _ _ _ => trivial)
        (fun z changed db y _ hiz _ hret _ _ hit => ?_) fun _ _ _ _ _ _ _ _ => trivial
      have hquiet := ((hcons (.inl hexpected)).cons
        (e := ⟨.query fun x => .ok x.now, x, x⟩) (not_overtaken rfl)).cons
        (e := ⟨.write (.transition reference run t now), z, { z with db }⟩) (not_overtaken rfl)
      cases changed with
      | false => exact ih hit hquiet
      | true =>
        obtain ⟨run', hrow', hstate'⟩ := commitTransition_left hiz.db hexpected hret
        exact Sat.ret fun _ _ _ => ⟨⟨_, _, run', rfl, hrow', hstate'⟩, fun _ => .inl rfl, fun _ => hquiet⟩
    · next htarget hterminal hexpected =>
      refine Sat.ret fun _ _ _ => ⟨hleft, fun hquiet => ?_, fun hended => ?_⟩
      · refine absurd ⟨t, run, rfl, hrow, hexpected, htarget, ?_⟩ (hquiet _ (List.mem_cons_self ..))
        exact Bool.eq_false_iff.mpr hterminal
      · exact (hended.elim htarget hterminal).elim

theorem transition_answers (t : Transition) {w : World} (hi : w.Inv dep)
    (hpast : NeverOvertaken reference past) :
    Answers reference (paid dep calls)
      (fun s past => NeverOvertaken reference past ↔ s = t.target ∨ isTerminal s = true)
      (transition reference t) past w :=
  transitionLoop_answers t maxCasAttempts hi hpast

/-- The first read of a call. -/
theorem state_answers {α : Type} {Q : α → List (Event (system dep calls)) → World → Prop}
    {next : RunState → Service α} {w : World} (hi : w.Inv dep) (hpast : NeverOvertaken reference past)
    (h : ∀ s past w, w.Inv dep → Left reference s past → NeverOvertaken reference past → s ≠ .draft →
      Sat (paid dep calls) Q (fun _ _ _ => True) (next s) past w) :
    Sat (paid dep calls) Q (fun _ _ _ => True) (state reference >>= next) past w := by
  refine Sat.bind hi (sat_query_event (C := paid dep calls) hi (fun _ => trivial)
    (fun v run u _ hiv hret _ _ => ?_) fun _ _ _ _ _ _ _ _ => trivial)
  cases hrun : (readRun reference).run v.db with
  | error e => rw [hrun] at hret; cases hret
  | ok r =>
    rw [hrun] at hret
    cases hret
    have hread : Returns (readRun reference) v.db r.1 r.2 := hrun
    obtain ⟨hrow, -⟩ := readRun_returns hread
    exact Sat.ret fun x _ hix => h r.1.state _ x hix ⟨_, _, r.1, rfl, hrow, rfl⟩
      (hpast.cons (not_overtaken rfl)) (Db.not_draft hiv.db (Db.run?_some hrow).1)

/-- The run has ended in state `s`, or the call was overtaken and left it as it is. -/
def Finished (reference : RunWorkflowReference) (s : RunState)
    (past : List (Event (system dep calls))) : Prop :=
  Left reference s past ∧ (isTerminal s = true ↔ NeverOvertaken reference past)

theorem requestCancellation_answers {w : World} (hi : w.Inv dep)
    (hpast : NeverOvertaken reference past) :
    Answers reference (paid dep calls)
      (fun s past => NeverOvertaken reference past ↔ s = .cancelling ∨ isTerminal s = true)
      (requestCancellation reference) past w := by
  refine state_answers hi hpast fun s past u hiu hleft hquiet hdraft => ?_
  split
  · exact transition_answers (.requestCancellation s) hiu hquiet
  · next hlive =>
    refine Sat.ret fun _ _ _ => ⟨hleft, fun _ => ?_, fun _ => hquiet⟩
    cases s <;> simp at hlive hdraft ⊢

theorem acknowledgeCancellation_answers {w : World} (hi : w.Inv dep)
    (hpast : NeverOvertaken reference past) :
    Sat (paid dep calls) (fun s past _ => Finished reference s past) (fun _ _ _ => True)
      (acknowledgeCancellation reference) past w := by
  refine Sat.bind hi ((requestCancellation_answers hi hpast).tracked hi |>.mono ?_ fun _ _ _ _ => trivial)
  rintro s past u ⟨⟨hleft, hquiet⟩, -, hiu⟩
  split
  · next hcancelling =>
    refine (transition_answers .acknowledgeCancellation hiu (hquiet.mpr (.inl hcancelling))).mono ?_
      fun _ _ _ _ => trivial
    rintro s past u ⟨hleft, hquiet⟩
    refine ⟨hleft, fun hended => hquiet.mpr (.inr hended), fun h => ?_⟩
    rcases hquiet.mp h with rfl | hended
    · rfl
    · exact hended
  · next hcancelling =>
    exact Sat.ret fun _ _ _ => ⟨hleft, fun hended => hquiet.mpr (.inr hended), fun h =>
      (hquiet.mp h).resolve_left hcancelling⟩

/-- The common body of `complete` and `fail`. -/
theorem finish_answers (t : Transition) (ht : isTerminal t.target = true) {w : World}
    (hi : w.Inv dep) (hpast : NeverOvertaken reference past) :
    Sat (paid dep calls) (fun s past _ => Finished reference s past) (fun _ _ _ => True)
      (do
        let s ← state reference
        if s = .cancelling then acknowledgeCancellation reference
        else if s = .cancelled ∨ s = .succeeded ∨ s = .failed then pure s
        else transition reference t) past w := by
  refine state_answers hi hpast fun s past u hiu hleft hquiet _ => ?_
  split
  · exact acknowledgeCancellation_answers hiu hquiet
  split
  · next hended =>
    exact Sat.ret fun _ _ _ => ⟨hleft, fun _ => hquiet, fun _ => isTerminal_eq_true.mpr hended⟩
  · refine (transition_answers t hiu hquiet).mono ?_ fun _ _ _ _ => trivial
    rintro s past u ⟨hleft, hquiet⟩
    refine ⟨hleft, fun hended => hquiet.mpr (.inr hended), fun h => ?_⟩
    rcases hquiet.mp h with rfl | hended
    · exact ht
    · exact hended

end DurableRunStore

/-- How a call that finishes the workflow leaves the run when it returns. -/
def FinishingAnswer (dep : Deployment) (reference : RunWorkflowReference) : (c : ServiceCall) →
    c.Value → List (Event (system dep (services dep))) → Prop
  | .complete r _, s, past => r = reference → DurableRunStore.Finished reference s past
  | .fail r _, s, past => r = reference → DurableRunStore.Finished reference s past
  | .acknowledgeCancellation r, s, past => r = reference → DurableRunStore.Finished reference s past
  | _, _, _ => True

theorem finishingAnswer_sat (reference : RunWorkflowReference) (c : ServiceCall) {w : World}
    (hi : w.Inv dep) :
    Sat (paid dep (services dep)) (fun a past _ => FinishingAnswer dep reference c a past)
      (fun _ _ _ => True) (c.prog dep) [] w := by
  have hnil : ∀ r, NeverOvertaken r ([] : List (Event (system dep (services dep)))) :=
    fun _ e he => nomatch he
  cases c with
  | complete r summary =>
    refine (DurableRunStore.finish_answers (.complete summary) rfl hi (hnil r)).mono ?_
      fun _ _ _ _ => trivial
    rintro s past u h rfl
    exact h
  | fail r code =>
    refine (DurableRunStore.finish_answers (.fail code) rfl hi (hnil r)).mono ?_
      fun _ _ _ _ => trivial
    rintro s past u h rfl
    exact h
  | acknowledgeCancellation r =>
    refine (DurableRunStore.acknowledgeCancellation_answers hi (hnil r)).mono ?_
      fun _ _ _ _ => trivial
    rintro s past u h rfl
    exact h
  | _ => exact Sat.free (fun _ _ _ _ => trivial) _ _ _

/-! ## The law -/

section Law

variable {memberships : List Membership} {cfg : ServiceConfig dep}

theorem finishingAnswers (h : Reachable free (World.initial memberships) cfg)
    {j : Job (system dep (services dep))} (hj : j ∈ cfg.jobs) (reference : RunWorkflowReference)
    {a : j.call.Value} (ha : j.Returned a) : FinishingAnswer dep reference j.call a j.history := by
  obtain ⟨hi, hjobs⟩ := (paid dep (services dep)).sound
    (fun c a past _ => FinishingAnswer dep reference c a past) (fun _ _ _ _ => True)
    (fun _ hG => hG.2.2) (fun c _ hi => finishingAnswer_sat reference c hi) (lawful_reachable h)
    (World.inv_initial dep memberships)
  exact (hjobs j hj _ ha).returned rfl hi

/-- A run that has ended stays ended. -/
theorem World.Later.ended {w w' : World} (h : w.Later w') (hi : w.Inv dep)
    {reference : RunWorkflowReference} {run run' : Run} (hrun : reference.run? w.db = some run)
    (hended : isTerminal run.state = true) (hrun' : reference.run? w'.db = some run') :
    isTerminal run'.state = true := by
  obtain ⟨hrow, -⟩ := Db.run?_some hrun
  obtain ⟨hrow', -⟩ := Db.run?_some hrun'
  obtain ⟨old, hold, hlater⟩ := h.db.runs reference.runId run' hrow' (hi.db.log.fresh _ _ hrow)
  rw [hrow] at hold
  cases hold
  rw [moves_final hlater.moves hended]
  exact hended

/-- In every run of the services, when `complete`, `fail` or `acknowledge_cancellation`
returns, the run it names has ended if and only if no read of `_transition` in that call
was overtaken; and a run that has ended stays so. -/
theorem finishing_call_ends_run (h : Reachable free (World.initial memberships) cfg)
    {j : Job (system dep (services dep))} (hj : j ∈ cfg.jobs) {reference : RunWorkflowReference}
    (hcall : j.call.finishes? = some reference) {a : j.call.Value} (ha : j.Returned a) :
    (Ended reference j.history ↔ NeverOvertaken reference j.history) ∧
      (Ended reference j.history → ∀ run, reference.run? cfg.world.db = some run →
        isTerminal run.state = true) := by
  have hanswer := finishingAnswers h hj reference ha
  have hlater := past_later h j hj
  have howed := events_owed h j hj
  have hfinished : ∃ s, DurableRunStore.Finished reference s j.history := by
    obtain ⟨call, rest, history⟩ := j
    cases call with
    | complete r summary => exact ⟨a, hanswer (Option.some.inj hcall)⟩
    | fail r code => exact ⟨a, hanswer (Option.some.inj hcall)⟩
    | acknowledgeCancellation r => exact ⟨a, hanswer (Option.some.inj hcall)⟩
    | _ => cases hcall
  obtain ⟨s, hleft, hquiet⟩ := hfinished
  refine ⟨⟨?_, fun h => ⟨s, hleft, hquiet.mpr h⟩⟩, ?_⟩
  · rintro ⟨s', hleft', hended⟩
    exact hquiet.mp (hleft.unique hleft' ▸ hended)
  · rintro ⟨s', ⟨e, earlier, run, hhistory, hrow, rfl⟩, hended⟩ run' hrow'
    have hmem : e ∈ j.history := hhistory ▸ List.mem_cons_self ..
    obtain ⟨hbefore, howes, hafter⟩ := howed e hmem
    have hi : e.after.Inv dep :=
      hafter ▸ (@Contract.commit _ (base dep (services dep)) [] _ e.op _ hbefore trivial howes).1
    exact (hlater e hmem).ended hi hrow hended hrow'

end Law

/-- A run that starts and is completed. -/
def completedSubmission : List (Move Small) :=
  smallSubmission ++ .start (ServiceCall.beginExecution smallReference) :: acts Small 3 8 ++
    .start (ServiceCall.complete smallReference (.data "done")) :: acts Small 4 4

/-- Whether job `i` has returned, and the state in which its latest operation left the run. -/
def smallAnswer (i : Nat) (schedule : List (Move Small)) : Option (Bool × Option RunState) :=
  (smallRun schedule).bind fun cfg => (cfg.jobs[i]?).bind fun j => j.history.head?.map fun e =>
    ((j.rest.bind Prog.returned?).isSome, (smallReference.run? e.after.db).map Run.state)

theorem finishing_call_ends_run_completed :
    smallAnswer 4 completedSubmission = some (true, some .succeeded) ∧
    ∀ cfg, smallRun completedSubmission = some cfg → ∀ j ∈ cfg.jobs,
      j.call.finishes? = some smallReference → ∀ a, j.Returned a →
        NeverOvertaken smallReference j.history → Ended smallReference j.history :=
  ⟨by decide +kernel, fun _ h _ hj hcall _ ha hquiet =>
    (finishing_call_ends_run (smallRun_reachable h) hj hcall ha).1.mpr hquiet⟩

/-- The run starts; `complete` reads it; its owner asks to cancel it. -/
def overtakenCompletion : List (Move Small) :=
  smallSubmission ++ .start (ServiceCall.beginExecution smallReference) :: acts Small 3 8 ++
    .start (ServiceCall.complete smallReference (.data "done")) :: acts Small 4 1 ++
    .start (ServiceCall.requestCancellation ⟨"owner", 1, none⟩ 1) :: acts Small 5 4 ++ acts Small 4 1

/-- `complete` returns while the run is `cancelling`, and nobody is left to move it. -/
theorem finishing_call_overtaken :
    ¬ ∀ cfg : Config Small, Reachable (M := Small) free (World.initial smallMembers) cfg →
      ∀ j ∈ cfg.jobs, j.call.finishes? = some smallReference → ∀ a, j.Returned a →
        Ended smallReference j.history := by
  intro hclaim
  have hrun : (smallRun overtakenCompletion).bind (fun cfg => (cfg.jobs[4]?).map fun j =>
      (j.call.finishes?, (j.rest.bind Prog.returned?).isSome,
        j.history.head?.map fun e => (smallReference.run? e.after.db).map Run.state)) =
      some (some smallReference, true, some (some .cancelling)) := by
    decide +kernel
  obtain ⟨cfg, hcfg, hrun⟩ := Option.bind_eq_some_iff.mp hrun
  obtain ⟨j, hj, hrun⟩ := Option.map_eq_some_iff.mp hrun
  simp only [Prod.mk.injEq] at hrun
  obtain ⟨hcall, hreturned, hstate⟩ := hrun
  obtain ⟨a, hreturned⟩ := Option.isSome_iff_exists.mp hreturned
  obtain ⟨p, hrest, hp⟩ := Option.bind_eq_some_iff.mp hreturned
  have hended := hclaim cfg (smallRun_reachable hcfg) j (List.mem_of_getElem? hj) hcall a
    (hrest.trans (congrArg some (Prog.eq_ret hp)))
  obtain ⟨s, ⟨e, earlier, run, hhistory, hrow, rfl⟩, hterminal⟩ := hended
  rw [hhistory, List.head?_cons, Option.map_some, hrow, Option.map_some, Option.some.injEq,
    Option.some.injEq] at hstate
  rw [hstate] at hterminal
  exact absurd hterminal (by decide)

end CorpusKit
