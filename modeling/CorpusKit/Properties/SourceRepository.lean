import CorpusKit.Adapters.SourceRepository
import Mathlib.Data.List.Nodup
import Mathlib.Data.List.Range

/-! # Accepted candidates stay aligned

Whatever the engine ranks and commits, a source is accepted once and leaves the pool
with its id. The candidates streamed are those returned exactly when the engine
reports the first acceptance in its first iteration, the second in its second, and so on. -/

namespace CorpusKit.Repository

/-! ## The pool -/

theorem zip_eraseIdx {sourceId : String} :
    ∀ {sourceIds : List String} {pool : List Entry}, sourceIds.Nodup →
      sourceIds.length = pool.length → sourceId ∈ sourceIds →
      (sourceIds.eraseIdx (sourceIds.idxOf sourceId)).zip
          (pool.eraseIdx (sourceIds.idxOf sourceId)) =
        (sourceIds.zip pool).filter fun e => decide (e.1 ≠ sourceId)
  | [], _, _, _, hmem => absurd hmem List.not_mem_nil
  | _ :: _, [], _, hlength, _ => by cases hlength
  | other :: sourceIds, entry :: pool, hnodup, hlength, hmem => by
    obtain ⟨hother, hrest⟩ := List.nodup_cons.mp hnodup
    by_cases heq : other = sourceId
    · subst heq
      have hkept : (sourceIds.zip pool).filter (fun e => decide (e.1 ≠ other)) =
          sourceIds.zip pool := by
        refine List.filter_eq_self.mpr fun e he => decide_eq_true ?_
        rintro rfl
        exact hother (List.of_mem_zip he).1
      rw [List.idxOf_cons_self, List.eraseIdx_cons_zero, List.eraseIdx_cons_zero,
        List.zip_cons_cons, List.filter_cons_of_neg (by simp), hkept]
    · have hmem : sourceId ∈ sourceIds := by
        rcases List.mem_cons.mp hmem with hsame | hmem
        · exact absurd hsame.symm heq
        · exact hmem
      rw [List.idxOf_cons_ne sourceIds heq, List.eraseIdx_cons_succ, List.eraseIdx_cons_succ,
        List.zip_cons_cons, zip_eraseIdx hrest (Nat.succ.inj hlength) hmem, List.zip_cons_cons,
        List.filter_cons, if_pos (decide_eq_true heq)]

/-- The pool and its source ids are the initial ones without the accepted. -/
structure Aligned (pool : List Entry) (sourceIds : List String) (s : State) : Prop where
  length : s.sourceIds.length = s.pool.length
  remaining : s.sourceIds.zip s.pool =
    (sourceIds.zip pool).filter fun e => decide (e.1 ∉ s.accepted.map Row.sourceId)
  seen : s.acceptedIds = s.accepted.map Row.sourceId
  distinct : (s.accepted.map Row.sourceId).Nodup
  accepted : ∀ row ∈ s.accepted, row.sourceId ∈ sourceIds

variable {pool : List Entry} {sourceIds : List String} {s t : State}

theorem Aligned.sourceIds_eq (h : Aligned pool sourceIds s) (hlength : pool.length = sourceIds.length) :
    s.sourceIds = sourceIds.filter fun e => decide (e ∉ s.accepted.map Row.sourceId) := by
  have hfst := congrArg (List.map Prod.fst) h.remaining
  have hmap : ((sourceIds.zip pool).filter fun e =>
      decide (e.1 ∉ s.accepted.map Row.sourceId)).map Prod.fst =
      ((sourceIds.zip pool).map Prod.fst).filter fun e =>
        decide (e ∉ s.accepted.map Row.sourceId) := by
    rw [List.filter_map]
    rfl
  rwa [hmap, List.map_fst_zip (Nat.le_of_eq h.length),
    List.map_fst_zip (Nat.le_of_eq hlength.symm)] at hfst

theorem prepare_aligned (h : prepare pool sourceIds = .ok s) :
    Aligned pool sourceIds s ∧ pool.length = sourceIds.length ∧ s.accepted = [] ∧ s.streamed = [] := by
  rw [prepare] at h
  split at h
  · cases h
  · next hlength =>
    cases h
    have hlength := not_not.mp hlength
    refine ⟨⟨hlength.symm, ?_, rfl, List.nodup_nil, fun row h => absurd h List.not_mem_nil⟩,
      hlength, rfl, rfl⟩
    exact (List.filter_eq_self.mpr fun e _ => by simp).symm

/-! ## One call -/

/-- What a commit does when it succeeds. -/
theorem scoreAndCommit_spec {key : Entry} {gain : Int} (h : scoreAndCommit s key gain = .ok t) :
    ∃ sourceId ∈ s.sourceIds, sourceId ∉ s.acceptedIds ∧
      t = { s with
        pool := s.pool.eraseIdx (s.sourceIds.idxOf sourceId)
        sourceIds := s.sourceIds.eraseIdx (s.sourceIds.idxOf sourceId)
        acceptedIds := s.acceptedIds ++ [sourceId]
        accepted := s.accepted ++ [⟨sourceId, key, gain⟩] } := by
  rw [scoreAndCommit] at h
  split at h
  · cases h
  · next source hsource =>
    have hfound := List.find?_some hsource
    have hnew : source.2 ∉ s.acceptedIds := (of_decide_eq_true hfound).2
    split at h
    · cases h
    · rw [markSourceUsed] at h
      split at h
      · next hmem =>
        cases h
        exact ⟨source.2, hmem, hnew, rfl⟩
      · cases h

theorem progressCallback_spec {iteration : Option Int} {coverage : Option Rat}
    (h : progressCallback s iteration coverage = .ok t) :
    ∃ row i c, s.accepted.getLast? = some row ∧ iteration = some i ∧ coverage = some c ∧
      (row.describe i).valid = true ∧
      t = { s with streamed := s.streamed ++ [(row.describe i, c)] } := by
  unfold progressCallback at h
  split at h
  · next row i c hrow =>
    split at h
    · next hvalid =>
      cases h
      exact ⟨row, i, c, hrow, rfl, rfl, hvalid, rfl⟩
    · cases h
  · cases h

theorem rank_spec {candidates : List Candidate} {ranked : List Entry}
    (h : rank s candidates ranked = .ok t) :
    ∃ rankedSources, t = { s with rankedSources := rankedSources } := by
  rw [rank] at h
  split at h
  · cases h
  · split at h
    · cases h
    · next rankedSources _ =>
      cases h
      exact ⟨rankedSources, rfl⟩

theorem generate_spec {candidates : List (Option Int × Entry)}
    (h : step s (.generate candidates) = .ok t) : t = s := by
  rw [step] at h
  cases hgenerate : generate s candidates with
  | error e =>
    rw [hgenerate] at h
    cases h
  | ok named =>
    rw [hgenerate] at h
    cases h
    rfl

theorem commit_aligned (hnodup : sourceIds.Nodup) (hlength : pool.length = sourceIds.length)
    (h : Aligned pool sourceIds s) {key : Entry} {gain : Int}
    (hcommit : scoreAndCommit s key gain = .ok t) : Aligned pool sourceIds t := by
  obtain ⟨sourceId, hmem, hnew, rfl⟩ := scoreAndCommit_spec hcommit
  have hids := h.sourceIds_eq hlength
  have hsub : s.sourceIds.Nodup := by
    rw [hids]
    exact hnodup.filter _
  have hsource : sourceId ∈ sourceIds := by
    rw [hids] at hmem
    exact (List.mem_filter.mp hmem).1
  rw [h.seen] at hnew
  constructor
  · show (s.sourceIds.eraseIdx _).length = (s.pool.eraseIdx _).length
    rw [List.length_eraseIdx, List.length_eraseIdx, h.length]
  · show (s.sourceIds.eraseIdx _).zip (s.pool.eraseIdx _) = _
    rw [zip_eraseIdx hsub h.length hmem, h.remaining, List.filter_filter]
    refine List.filter_congr fun e _ => ?_
    simp only [List.map_append, List.mem_append, List.map_cons, List.map_nil, List.mem_singleton,
      not_or, ne_eq]
    rw [← Bool.decide_and, decide_eq_decide, and_comm]
  · show s.acceptedIds ++ [sourceId] = _
    rw [h.seen, List.map_append]
    rfl
  · show ((s.accepted ++ [(⟨sourceId, key, gain⟩ : Row)]).map Row.sourceId).Nodup
    rw [List.map_append]
    exact List.nodup_append.mpr ⟨h.distinct, List.nodup_singleton _, fun a ha b hb => by
      rw [List.mem_singleton.mp hb]
      rintro rfl
      exact hnew ha⟩
  · intro row hrow
    rcases List.mem_append.mp hrow with hrow | hrow
    · exact h.accepted row hrow
    · rw [List.mem_singleton.mp hrow]
      exact hsource

theorem step_aligned (hnodup : sourceIds.Nodup) (hlength : pool.length = sourceIds.length)
    (h : Aligned pool sourceIds s) {call : Call} (hstep : step s call = .ok t) :
    Aligned pool sourceIds t := by
  cases call with
  | generate candidates =>
    rw [generate_spec hstep]
    exact h
  | rank candidates ranked =>
    obtain ⟨rankedSources, rfl⟩ := rank_spec hstep
    exact ⟨h.length, h.remaining, h.seen, h.distinct, h.accepted⟩
  | commit key gain => exact commit_aligned hnodup hlength h hstep
  | progress iteration coverage =>
    obtain ⟨row, i, c, -, -, -, -, rfl⟩ := progressCallback_spec hstep
    exact ⟨h.length, h.remaining, h.seen, h.distinct, h.accepted⟩

theorem run_cons {call : Call} {calls : List Call} (h : run s (call :: calls) = .ok t) :
    ∃ middle, step s call = .ok middle ∧ run middle calls = .ok t := by
  rw [run] at h
  cases hstep : step s call with
  | error e =>
    rw [hstep] at h
    cases h
  | ok middle =>
    rw [hstep] at h
    exact ⟨middle, rfl, h⟩

theorem run_aligned (hnodup : sourceIds.Nodup) (hlength : pool.length = sourceIds.length) :
    ∀ {calls : List Call} {s : State}, Aligned pool sourceIds s → run s calls = .ok t →
      Aligned pool sourceIds t
  | [], _, h, hrun => by
    cases hrun
    exact h
  | _ :: _, _, h, hrun => by
    obtain ⟨middle, hstep, hrest⟩ := run_cons hrun
    exact run_aligned hnodup hlength (step_aligned hnodup hlength h hstep) hrest

/-! ## What the engine reports -/

/-- For each report of the engine, how many candidates it had committed, and the
iteration it told. -/
def reports (committed : Nat) : List Call → List (Nat × Int)
  | [] => []
  | .commit _ _ :: calls => reports (committed + 1) calls
  | .progress (some iteration) _ :: calls => (committed, iteration) :: reports committed calls
  | _ :: calls => reports committed calls

def commits : List Call → Nat
  | [] => 0
  | .commit _ _ :: calls => commits calls + 1
  | _ :: calls => commits calls

/-- The first `n` iterations accept one candidate each, reported at once. -/
def inStep (n : Nat) : List (Nat × Int) := (List.range' 1 n).map fun k => (k, (k : Int))

/-- The candidate a report describes. -/
def described (rows : List Row) (report : Nat × Int) : Option AcceptedCandidate :=
  (rows[report.1 - 1]?).map fun row => row.describe report.2

theorem described_append {rows more : List Row} {report : Nat × Int} (hpos : 1 ≤ report.1)
    (h : report.1 ≤ rows.length) : described (rows ++ more) report = described rows report := by
  rw [described, described, List.getElem?_append_left (by omega)]

/-- A run appends the rows it commits, and streams what its reports describe. -/
theorem run_streams : ∀ {calls : List Call} {s : State}, run s calls = .ok t →
    ∃ more, t.accepted = s.accepted ++ more ∧ more.length = commits calls ∧
      (∀ report ∈ reports s.accepted.length calls,
        1 ≤ report.1 ∧ report.1 ≤ t.accepted.length) ∧
      t.streamed.map (fun e => some e.1) = s.streamed.map (fun e => some e.1) ++
        (reports s.accepted.length calls).map (described t.accepted)
  | [], s, h => by
    cases h
    exact ⟨[], (List.append_nil _).symm, rfl, fun r hr => absurd hr List.not_mem_nil,
      (List.append_nil _).symm⟩
  | call :: calls, s, h => by
    obtain ⟨middle, hstep, hrest⟩ := run_cons h
    obtain ⟨more, haccepted, hmore, hreports, hstreamed⟩ := run_streams hrest
    cases call with
    | generate candidates =>
      rw [generate_spec hstep] at haccepted hreports hstreamed
      exact ⟨more, haccepted, hmore, hreports, hstreamed⟩
    | rank candidates ranked =>
      obtain ⟨rankedSources, rfl⟩ := rank_spec hstep
      exact ⟨more, haccepted, hmore, hreports, hstreamed⟩
    | commit key gain =>
      obtain ⟨sourceId, -, -, rfl⟩ := scoreAndCommit_spec hstep
      have hlength : (s.accepted ++ [(⟨sourceId, key, gain⟩ : Row)]).length = s.accepted.length + 1 := by
        rw [List.length_append, List.length_singleton]
      rw [hlength] at hreports hstreamed
      refine ⟨⟨sourceId, key, gain⟩ :: more, ?_, ?_, hreports, hstreamed⟩
      · rw [haccepted, List.append_assoc, List.singleton_append]
      · rw [List.length_cons, hmore, commits]
    | progress iteration coverage =>
      obtain ⟨row, i, c, hlast, rfl, -, -, rfl⟩ := progressCallback_spec hstep
      have hne : s.accepted ≠ [] := by
        intro hnil
        rw [hnil] at hlast
        cases hlast
      have hpos : 1 ≤ s.accepted.length := List.length_pos_of_ne_nil hne
      have hdescribed : described t.accepted (s.accepted.length, i) = some (row.describe i) := by
        rw [haccepted, described_append hpos (Nat.le_refl _), described,
          ← List.getLast?_eq_getElem?, hlast]
        rfl
      refine ⟨more, haccepted, hmore, ?_, ?_⟩
      · intro report hreport
        rcases List.mem_cons.mp hreport with rfl | hreport
        · refine ⟨hpos, ?_⟩
          rw [haccepted, List.length_append]
          exact Nat.le_add_right _ _
        · exact hreports report hreport
      · rw [hstreamed, reports, List.map_cons, hdescribed, List.map_append, List.append_assoc]
        rfl

/-! ## The two descriptions -/

theorem map_inj_of {α β : Type} {f : α → β} : ∀ {l l' : List α},
    (∀ a ∈ l, ∀ b ∈ l', f a = f b → a = b) → l.map f = l'.map f → l = l'
  | [], [], _, _ => rfl
  | [], _ :: _, _, h => by cases h
  | _ :: _, [], _, h => by cases h
  | a :: l, b :: l', hinj, h => by
    rw [List.map_cons, List.map_cons, List.cons.injEq] at h
    rw [hinj a List.mem_cons_self b List.mem_cons_self h.1,
      map_inj_of (fun x hx y hy => hinj x (List.mem_cons_of_mem a hx) y
        (List.mem_cons_of_mem b hy)) h.2]

/-- Rows with distinct sources tell reports apart. -/
theorem described_inj {rows : List Row} (hdistinct : (rows.map Row.sourceId).Nodup)
    {a b : Nat × Int} (ha : 1 ≤ a.1 ∧ a.1 ≤ rows.length) (hb : 1 ≤ b.1 ∧ b.1 ≤ rows.length)
    (h : described rows a = described rows b) : a = b := by
  have hai : a.1 - 1 < rows.length := by omega
  have hbi : b.1 - 1 < rows.length := by omega
  rw [described, described, List.getElem?_eq_getElem hai, List.getElem?_eq_getElem hbi,
    Option.map_some, Option.map_some, Option.some.injEq] at h
  have hid : (rows[a.1 - 1]).sourceId = (rows[b.1 - 1]).sourceId :=
    congrArg AcceptedCandidate.sourceId h
  have hindex : a.1 - 1 = b.1 - 1 := by
    have hai' : a.1 - 1 < (rows.map Row.sourceId).length := by rwa [List.length_map]
    have hbi' : b.1 - 1 < (rows.map Row.sourceId).length := by rwa [List.length_map]
    have heq : (rows.map Row.sourceId)[a.1 - 1] = (rows.map Row.sourceId)[b.1 - 1] := by
      rw [List.getElem_map, List.getElem_map, hid]
    exact hdistinct.getElem_inj_iff.mp heq
  have hiteration : a.2 = b.2 := congrArg AcceptedCandidate.iteration h
  exact Prod.ext (by omega) hiteration

theorem normalizeAccepted_eq {rows : List Row} {accepted : List AcceptedCandidate}
    (h : normalizeAccepted rows = .ok accepted) :
    accepted.map some = (inStep rows.length).map (described rows) := by
  have haccepted : accepted = (rows.zipIdx 1).map fun entry => entry.1.describe entry.2 := by
    rw [normalizeAccepted] at h
    dsimp only at h
    split at h
    · cases h
    · split at h
      · cases h
      · exact (Except.ok.inj h).symm
  rw [haccepted, inStep, List.map_map, List.map_map]
  refine List.ext_getElem ?_ ?_
  · simp
  · intro i hi hi'
    have hrow : i < rows.length := by simpa using hi
    simp only [List.getElem_map, List.getElem_zipIdx, List.getElem_range', Function.comp_apply,
      described]
    have hindex : 1 + 1 * i - 1 = i := by omega
    rw [hindex, List.getElem?_eq_getElem hrow, Nat.one_mul]
    rfl

theorem mem_inStep {n : Nat} {report : Nat × Int} (h : report ∈ inStep n) :
    1 ≤ report.1 ∧ report.1 ≤ n := by
  obtain ⟨k, hk, rfl⟩ := List.mem_map.mp h
  have := List.mem_range'_1.mp hk
  exact ⟨this.1, by show k ≤ n; omega⟩

/-- The sources of accepted candidates are distinct, and the pool with its ids is the
initial one without them. The candidates streamed are those of the result exactly when
the engine's reports are in step with its acceptances. -/
theorem repository_run_aligned {start : State} {calls : List Call}
    {accepted : List AcceptedCandidate} (hids : sourceIds.Nodup)
    (hprepare : prepare pool sourceIds = .ok start) (hrun : run start calls = .ok s)
    (haccepted : normalizeAccepted s.accepted = .ok accepted) :
    (s.accepted.map Row.sourceId).Nodup ∧
    (∀ row ∈ s.accepted, row.sourceId ∈ sourceIds) ∧
    s.sourceIds.length = s.pool.length ∧
    s.sourceIds.zip s.pool =
      (sourceIds.zip pool).filter (fun e => decide (e.1 ∉ s.accepted.map Row.sourceId)) ∧
    (s.streamed.map Prod.fst = accepted ↔ reports 0 calls = inStep (commits calls)) := by
  obtain ⟨hstart, hlength, hnone, hquiet⟩ := prepare_aligned hprepare
  have haligned := run_aligned hids hlength hstart hrun
  refine ⟨haligned.distinct, haligned.accepted, haligned.length, haligned.remaining, ?_⟩
  obtain ⟨more, hmore, hcommits, hreports, hstreamed⟩ := run_streams hrun
  rw [hnone] at hmore hreports hstreamed
  rw [List.nil_append] at hmore
  rw [hquiet, List.map_nil, List.nil_append, List.length_nil] at hstreamed
  have hcount : s.accepted.length = commits calls := by rw [hmore, hcommits]
  have hreturned := normalizeAccepted_eq haccepted
  rw [hcount] at hreturned
  have hsome : s.streamed.map (fun e => some e.1) = (s.streamed.map Prod.fst).map some := by
    rw [List.map_map]
    rfl
  have hsame : s.streamed.map Prod.fst = accepted ↔
      (reports 0 calls).map (described s.accepted) =
        (inStep (commits calls)).map (described s.accepted) := by
    rw [← hstreamed, ← hreturned, hsome]
    exact (List.map_injective_iff.mpr (Option.some_injective _)).eq_iff.symm
  rw [hsame]
  constructor
  · refine map_inj_of fun a ha b hb heq => ?_
    have hb := mem_inStep hb
    rw [← hcount] at hb
    exact described_inj haligned.distinct (hreports a ha) hb heq
  · intro h
    rw [h]

/-! ## A run whose first iteration accepts nothing -/

def smallPool : List Entry := [⟨"one", ["a"]⟩, ⟨"two", ["b"]⟩]
def smallIds : List String := ["s1", "s2"]
def smallCandidates : List Candidate := [⟨⟨"one", ["a"]⟩, some "s1"⟩, ⟨⟨"two", ["b"]⟩, some "s2"⟩]

def smallCalls (iteration : Int) : List Call :=
  [.rank smallCandidates [⟨"two", ["b"]⟩, ⟨"one", ["a"]⟩], .commit ⟨"two", ["b"]⟩ 1,
    .progress (some iteration) (some 1)]

/-- What is streamed and what is returned by a run. -/
def outcome (pool : List Entry) (sourceIds : List String) (calls : List Call) :
    Option (List AcceptedCandidate × List AcceptedCandidate) :=
  match prepare pool sourceIds with
  | .error _ => none
  | .ok start =>
    match run start calls with
    | .error _ => none
    | .ok s =>
      match normalizeAccepted s.accepted with
      | .error _ => none
      | .ok accepted => some (s.streamed.map Prod.fst, accepted)

theorem streamed_iteration_differs :
    outcome smallPool smallIds (smallCalls 2) =
      some ([⟨"s2", ⟨"two", ["b"]⟩, 2, 1⟩], [⟨"s2", ⟨"two", ["b"]⟩, 1, 1⟩]) := by
  decide +kernel

theorem repository_run_aligned_small :
    ∃ s : State, (s.accepted.map Row.sourceId).Nodup ∧
      s.streamed.map Prod.fst = [⟨"s2", ⟨"two", ["b"]⟩, 1, 1⟩] := by
  have hprepare : prepare smallPool smallIds = .ok ⟨smallPool, smallIds, [], [], [], []⟩ := rfl
  have hrun : run ⟨smallPool, smallIds, [], [], [], []⟩ (smallCalls 1) =
      .ok ⟨[⟨"one", ["a"]⟩], ["s1"], [(⟨"two", ["b"]⟩, "s2"), (⟨"one", ["a"]⟩, "s1")], ["s2"],
        [⟨"s2", ⟨"two", ["b"]⟩, 1⟩], [(⟨"s2", ⟨"two", ["b"]⟩, 1, 1⟩, 1)]⟩ := by
    rfl
  have haccepted : normalizeAccepted [⟨"s2", ⟨"two", ["b"]⟩, 1⟩] =
      .ok [⟨"s2", ⟨"two", ["b"]⟩, 1, 1⟩] := by
    rfl
  obtain ⟨hdistinct, -, -, -, hsame⟩ :=
    repository_run_aligned (by decide) hprepare hrun haccepted
  exact ⟨_, hdistinct, hsame.mpr (by decide)⟩

end CorpusKit.Repository
