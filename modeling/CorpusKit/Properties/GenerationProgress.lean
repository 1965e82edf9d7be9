import CorpusKit.Workflows.RepositoryGeneration
import Mathlib.Algebra.Order.Field.Rat
import Mathlib.Data.Int.Basic
import Mathlib.Data.List.DropRight
import Mathlib.Tactic.Ring

/-! # Progress of a repository generation

The handler publishes the phases of a run, its first acceptance and every
acceptance whose number is a multiple of a stride, and the stride is chosen for
the number of acceptances the request allows. A request that is only limited in
time allows any number, and then the messages can run out before the run ends. -/

namespace CorpusKit.RepositoryGeneration

open Effects

/-! ## The size of a message -/

@[simp] theorem byteLength_nil : byteLength [] = 0 := rfl

@[simp] theorem byteLength_cons (c : Char) (text : List Char) :
    byteLength (c :: text) = c.utf8Size + byteLength text := by
  simp [byteLength]

@[simp] theorem byteLength_append (text text' : List Char) :
    byteLength (text ++ text') = byteLength text + byteLength text' := by
  simp [byteLength]

theorem byteLength_ascii {text : List Char} (h : ∀ c ∈ text, c.toNat < 128) :
    byteLength text = text.length := by
  induction text with
  | nil => rfl
  | cons c text ih =>
    have hc : c.utf8Size = 1 := by
      rw [Char.utf8Size_eq_one_iff]
      exact Nat.le_of_lt_succ (h c List.mem_cons_self)
    rw [byteLength_cons, hc, ih fun d hd => h d (List.mem_cons_of_mem c hd), List.length_cons]
    omega

theorem isDigit_ascii {c : Char} (h : c.isDigit = true) : c.toNat < 128 := by
  simp only [Char.isDigit, Bool.and_eq_true, decide_eq_true_eq] at h
  have := h.2
  rw [UInt32.le_iff_toNat_le] at this
  exact Nat.lt_of_le_of_lt this (by decide)

theorem byteLength_nat {n k : Nat} (hk : 0 < k) (h : n < 10 ^ k) :
    byteLength (Json.encode (.int n)) ≤ k := by
  show byteLength (Nat.toDigits 10 n) ≤ k
  have hdigits : ∀ c ∈ Nat.toDigits 10 n, c.toNat < 128 := fun c hc =>
    isDigit_ascii (Nat.isDigit_of_mem_toDigits (by omega) (by omega) hc)
  rw [byteLength_ascii hdigits]
  exact (Nat.length_toDigits_le_iff (by omega) hk).mpr h

theorem byteLength_natOrNull {x : Option Nat} (h : ∀ n ∈ x, n ≤ maxDurableProgressTotal) :
    byteLength (Json.encode (natOrNull x)) ≤ 5 := by
  cases x with
  | none => decide
  | some n =>
    refine byteLength_nat (by omega) ?_
    have := h n rfl
    unfold maxDurableProgressTotal at this
    omega

theorem byteLength_coverage {repr : ℚ → Json.FloatText} (hrepr : ∀ q, (repr q).chars.length ≤ 24)
    (x : Option Number) : byteLength (Json.encode (coverageOrNull repr x)) ≤ 24 := by
  unfold coverageOrNull
  split
  · next q =>
    show byteLength (repr q).chars ≤ 24
    rw [byteLength_ascii]
    · exact hrepr q
    · intro c hc
      rcases (repr q).numeric c hc with h | rfl | rfl | rfl | rfl
      · exact isDigit_ascii h
      all_goals decide
  · decide

theorem byteLength_phase (phase : RunProgressPhase) :
    byteLength (Json.encode (.str phase.value.toList)) ≤ 22 := by
  cases phase <;> decide

/-- A valid message fits the pipe. -/
theorem encodeProgress_bytes {repr : ℚ → Json.FloatText} (hrepr : ∀ q, (repr q).chars.length ≤ 24)
    {p : DurableRunProgress} (hp : p.Valid) :
    byteLength (encodeProgress repr p) ≤ maxProcessProgressBytes := by
  have haccepted := byteLength_natOrNull hp.acceptedCount
  have hcompleted := byteLength_natOrNull hp.completed
  have htotal := byteLength_natOrNull fun n hn => (hp.total n hn).2
  have hcoverage := byteLength_coverage hrepr p.coverage
  have hphase := byteLength_phase p.phase
  have hsequence : byteLength (Json.encode (.int p.sequence)) ≤ 3 :=
    byteLength_nat (by omega) (Nat.lt_trans hp.sequence (by decide))
  have hversion : byteLength (Json.encode (.int 1)) = 1 := by decide
  have hkeys : byteLength (Json.literal "progress".toList) = 10 ∧
      byteLength (Json.literal "accepted_count".toList) = 16 ∧
      byteLength (Json.literal "completed".toList) = 11 ∧
      byteLength (Json.literal "coverage".toList) = 10 ∧
      byteLength (Json.literal "phase".toList) = 7 ∧
      byteLength (Json.literal "schema_version".toList) = 16 ∧
      byteLength (Json.literal "sequence".toList) = 10 ∧
      byteLength (Json.literal "total".toList) = 7 ∧
      byteLength (Json.literal "status".toList) = 8 ∧
      byteLength (Json.encode (.str "progress".toList)) = 10 := by decide
  have hmarks : ('{' : Char).utf8Size = 1 ∧ ('}' : Char).utf8Size = 1 ∧ (',' : Char).utf8Size = 1 ∧
      (':' : Char).utf8Size = 1 := by decide
  obtain ⟨h1, h2, h3, h4, h5, h6, h7, h8, h9, h10⟩ := hkeys
  obtain ⟨m1, m2, m3, m4⟩ := hmarks
  unfold encodeProgress maxProcessProgressBytes
  rw [Json.encode, Json.encode]
  simp only [Json.encodeFields, byteLength_append, byteLength_cons, byteLength_nil, h1, h2, h3, h4,
    h5, h6, h7, h8, h9, h10, m1, m2, m3, m4, hversion]
  omega

/-! ## The counters of the child and of the handler -/

/-- The messages sent are numbered from zero without a gap, and all counters agree. -/
structure Reporting.Counted (s : Reporting) : Prop where
  numbered : s.sent.map (·.sequence) = List.range s.sequence
  counted : s.progressCount = s.sequence
  latest : s.lastProgressSequence = (s.sequence : Int) - 1
  valid : ∀ p ∈ s.sent, p.Valid
  bounded : s.sequence ≤ maxDurableProgressMessages

theorem Reporting.counted_initial : ({} : Reporting).Counted where
  numbered := rfl
  counted := rfl
  latest := rfl
  valid p hp := absurd hp List.not_mem_nil
  bounded := by decide

/-- The variables after the message has been published. -/
def Reporting.push (s : Reporting) (p : DurableRunProgress) : Reporting :=
  { s with
    sequence := s.sequence + 1, lastPhase := some p.phase, lastProgressSequence := p.sequence
    progressCount := s.progressCount + 1, sent := s.sent ++ [p] }

theorem Reporting.Counted.push {s : Reporting} (h : s.Counted) {p : DurableRunProgress}
    (hp : p.Valid) (hsequence : p.sequence = s.sequence) : (s.push p).Counted where
  numbered := by
    show (s.sent ++ [p]).map (·.sequence) = List.range (s.sequence + 1)
    rw [List.map_append, h.numbered, List.range_succ, List.map_singleton, hsequence]
  counted := congrArg (· + 1) h.counted
  latest := by
    show (p.sequence : Int) = ((s.sequence + 1 : Nat) : Int) - 1
    omega
  valid q hq := by
    rcases List.mem_append.mp hq with hold | hnew
    · exact h.valid q hold
    · rw [List.mem_singleton.mp hnew]
      exact hp
  bounded := by
    have := hp.sequence
    rw [hsequence] at this
    exact this

/-- The phases a stretch of a run has reported, where it reports at all. -/
structure Grew (on : Bool) (s t : Reporting) (phases : List RunProgressPhase) : Prop where
  counted : t.Counted
  sent : ∃ messages, t.sent = s.sent ++ messages ∧
    messages.map (·.phase) = if on then phases else []
  sequence : t.sequence = s.sequence + if on then phases.length else 0
  last : t.lastPhase = if on then phases.getLast?.or s.lastPhase else s.lastPhase

theorem Grew.refl {on : Bool} {s : Reporting} (h : s.Counted) : Grew on s s [] where
  counted := h
  sent := ⟨[], by simp, by simp⟩
  sequence := by simp
  last := by simp

theorem Grew.trans {on : Bool} {s t u : Reporting} {phases phases' : List RunProgressPhase}
    (h : Grew on s t phases) (h' : Grew on t u phases') : Grew on s u (phases ++ phases') where
  counted := h'.counted
  sent := by
    obtain ⟨messages, hsent, hphases⟩ := h.sent
    obtain ⟨messages', hsent', hphases'⟩ := h'.sent
    refine ⟨messages ++ messages', by rw [hsent', hsent, List.append_assoc], ?_⟩
    rw [List.map_append, hphases, hphases']
    cases on <;> simp
  sequence := by
    rw [h'.sequence, h.sequence]
    cases on <;> simp [Nat.add_assoc]
  last := by
    rw [h'.last, h.last]
    cases on
    · rfl
    · simp [List.getLast?_append, Option.or_assoc]

/-- Variables of the coordinator are not what a stretch is about. -/
theorem Grew.of_same {on : Bool} {s t t' : Reporting} {phases : List RunProgressPhase}
    (h : Grew on s t phases) (hsent : t'.sent = t.sent) (hsequence : t'.sequence = t.sequence)
    (hlast : t'.lastPhase = t.lastPhase)
    (hlatest : t'.lastProgressSequence = t.lastProgressSequence)
    (hcount : t'.progressCount = t.progressCount) : Grew on s t' phases where
  counted := ⟨by rw [hsent, hsequence]; exact h.counted.numbered,
    by rw [hcount, hsequence]; exact h.counted.counted,
    by rw [hlatest, hsequence]; exact h.counted.latest, by rw [hsent]; exact h.counted.valid,
    by rw [hsequence]; exact h.counted.bounded⟩
  sent := by rw [hsent]; exact h.sent
  sequence := by rw [hsequence]; exact h.sequence
  last := by rw [hlast]; exact h.last

section Handler

variable {repr : ℚ → Json.FloatText} (hrepr : ∀ q, (repr q).chars.length ≤ 24)
  {request : RepositoryGenerationRequest}

/-- The child's sink, or none. -/
def sinkOf (repr : ℚ → Json.FloatText) (on : Bool) : Option (DurableRunProgress → Call Unit) :=
  if on then some (childEmit repr) else none

/-- There is room for so many more messages. -/
def Room (on : Bool) (s : Reporting) (n : Nat) : Prop :=
  on = true → s.sequence + n ≤ maxDurableProgressMessages

theorem totalIterations_bounds (request : RepositoryGenerationRequest) :
    1 ≤ request.totalIterations ∧ request.totalIterations ≤ maxGenerationIterations := by
  unfold RepositoryGenerationRequest.totalIterations
  cases h : request.stopping.maxIterations with
  | none => decide
  | some n => exact request.stopping.iterations n h

/-- The arguments of a publication are within their bounds. -/
structure Sound (request : RepositoryGenerationRequest) (completed : Option Nat)
    (coverage : Option Number) (acceptedCount : Option Nat) : Prop where
  completed : ∀ n ∈ completed, n ≤ request.totalIterations
  coverage : ∀ x ∈ coverage, x.InUnit
  acceptedCount : ∀ n ∈ acceptedCount, n ≤ maxDurableProgressTotal

theorem Sound.none : Sound request none none none := ⟨nofun, nofun, nofun⟩

/-- The message `publish` builds. -/
def message (request : RepositoryGenerationRequest) (sequence : Nat) (phase : RunProgressPhase)
    (completed : Option Nat) (coverage : Option Number) (acceptedCount : Option Nat) :
    DurableRunProgress where
  sequence := sequence
  phase := phase
  completed := completed
  total := if completed.isSome then some request.totalIterations else .none
  coverage := coverage
  acceptedCount := acceptedCount

theorem Sound.valid {completed coverage acceptedCount} (h : Sound request completed coverage acceptedCount)
    {sequence : Nat} (hsequence : sequence < maxDurableProgressMessages) (phase : RunProgressPhase) :
    (message request sequence phase completed coverage acceptedCount).Valid where
  sequence := hsequence
  completed n hn := by
    have h1 := h.completed n hn
    have h2 := (totalIterations_bounds request).2
    unfold maxGenerationIterations at h2
    unfold maxDurableProgressTotal
    omega
  total n hn := by
    obtain ⟨h1, h2⟩ := totalIterations_bounds request
    unfold maxGenerationIterations at h2
    unfold maxDurableProgressTotal
    cases completed with
    | none => cases hn
    | some c =>
      cases hn
      omega
  coverage := h.coverage
  acceptedCount := h.acceptedCount
  together := by cases completed <;> rfl
  within n hn m hm := by
    cases hn
    cases hm
    exact h.completed n rfl

include hrepr in
/-- The child takes the next message. -/
theorem childEmit_ends {s : Reporting} (hs : s.Counted) {p : DurableRunProgress} (hp : p.Valid)
    (hsequence : p.sequence = s.sequence) :
    Ends (childEmit repr p) s (.ok ())
      { s with
        lastProgressSequence := p.sequence, progressCount := s.progressCount + 1
        sent := s.sent ++ [p] } := by
  unfold childEmit
  refine (Ends.modify _ s).seq ((Ends.get _).seq ((Ends.require ⟨?_, ?_⟩).seq
    ((Ends.modify _ _).seq ((Ends.require (encodeProgress_bytes hrepr hp)).seq (Ends.modify _ _)))))
  · have := hp.sequence
    rw [hsequence] at this
    rw [hs.counted]
    exact this
  · rw [hs.latest, hsequence]
    omega

include hrepr in
/-- While there is room, a publication is sent or, without progress, skipped. -/
theorem publish_room {on : Bool} {s : Reporting} (hs : s.Counted) (hroom : Room on s 1)
    {completed coverage acceptedCount}
    (hsound : Sound request completed coverage acceptedCount) (phase : RunProgressPhase) :
    ∃ t, Ends (DurableHandler.publish (sinkOf repr on) request phase completed coverage acceptedCount)
      s (.ok ()) t ∧ Grew on s t [phase] ∧ t.accepted = s.accepted ∧ t.events = s.events := by
  cases on with
  | false => exact ⟨s, .pure () s, ⟨hs, ⟨[], by simp, rfl⟩, rfl, rfl⟩, rfl, rfl⟩
  | true =>
    have hlt : s.sequence < maxDurableProgressMessages := hroom rfl
    have hp := hsound.valid hlt phase
    refine ⟨s.push (message request s.sequence phase completed coverage acceptedCount), ?_,
      ⟨hs.push hp rfl, ⟨[_], rfl, rfl⟩, rfl, rfl⟩, rfl, rfl⟩
    unfold DurableHandler.publish sinkOf
    exact (Ends.get s).seq ((Ends.require hp).seq ((childEmit_ends hrepr hs hp rfl).seq
      (Ends.modify _ _)))

/-- Without room it raises, and sends nothing. -/
theorem publish_full {s : Reporting} (hfull : s.sequence = maxDurableProgressMessages)
    (phase : RunProgressPhase) (completed coverage acceptedCount) :
    Ends (DurableHandler.publish (sinkOf repr true) request phase completed coverage acceptedCount)
      s (.error .value) s := by
  unfold DurableHandler.publish sinkOf
  refine (Ends.get s).seq (Ends.refuse fun hp => ?_).stop
  exact absurd hp.sequence (by simp [hfull])

/-! ## The coordinator's events -/

theorem ofValue_phase (phase : GenerationPhase) :
    ∃ progress, RunProgressPhase.ofValue phase.value = some progress ∧
      progress.value = phase.value := by
  cases phase
  · exact ⟨.validating, by decide, rfl⟩
  · exact ⟨.preparingRepository, by decide, rfl⟩
  · exact ⟨.generating, by decide, rfl⟩
  · exact ⟨.candidateAccepted, by decide, rfl⟩
  · exact ⟨.finished, by decide, rfl⟩
  · exact ⟨.failed, by decide, rfl⟩

/-- What a sink did to the variables, after the coordinator has counted its event. -/
theorem coordinator_publish_ok {sink : GenerationProgress → Call Unit} {s t : Reporting}
    {phase : GenerationPhase} {iteration : Nat} {coverage : Number} {acceptedCount : Nat}
    {accepted : Option AcceptedCandidate} {result : Option RepositoryGenerationResult}
    (hcoverage : coverage.InUnit)
    (hsink : Ends (sink
      { sequence := s.events, phase, iteration, coverage, acceptedCount
        acceptedSourceId := accepted.map (·.sourceId), coverageGain := accepted.map (·.coverageGain)
        stopReason := result.map (·.stopReason) }) s (.ok ()) t) :
    Ends (GenerationCoordinator.publish sink phase iteration coverage acceptedCount accepted result)
      s (.ok ()) { t with events := t.events + 1 } := by
  unfold GenerationCoordinator.publish
  refine (Ends.get s).seq ((Ends.require ⟨hcoverage, ?_⟩).seq (hsink.seq (Ends.modify _ t)))
  intro n hn
  obtain ⟨candidate, -, rfl⟩ := Option.map_eq_some_iff.mp hn
  exact candidate.gains

theorem coordinator_publish_raises {sink : GenerationProgress → Call Unit} {s t : Reporting}
    {phase : GenerationPhase} {iteration : Nat} {coverage : Number} {acceptedCount : Nat}
    {accepted : Option AcceptedCandidate} {result : Option RepositoryGenerationResult} {e : Raised}
    (hcoverage : coverage.InUnit)
    (hsink : Ends (sink
      { sequence := s.events, phase, iteration, coverage, acceptedCount
        acceptedSourceId := accepted.map (·.sourceId), coverageGain := accepted.map (·.coverageGain)
        stopReason := result.map (·.stopReason) }) s (.error e) t) :
    Ends (GenerationCoordinator.publish sink phase iteration coverage acceptedCount accepted result)
      s (.error e) t := by
  unfold GenerationCoordinator.publish
  refine (Ends.get s).seq ((Ends.require ⟨hcoverage, ?_⟩).seq hsink.stop)
  intro n hn
  obtain ⟨candidate, -, rfl⟩ := Option.map_eq_some_iff.mp hn
  exact candidate.gains

theorem zero_inUnit : Number.InUnit (some 0) := ⟨0, rfl, le_refl _, zero_le_one⟩

variable (request) in
include hrepr in
/-- A phase without a candidate, by the name it has in the messages. -/
theorem publishPhase_room (on : Bool) {s : Reporting} (hs : s.Counted) (hroom : Room on s 1)
    {phase : GenerationPhase} {progress : RunProgressPhase}
    (hvalue : RunProgressPhase.ofValue phase.value = some progress)
    (hphase : phase ≠ .candidateAccepted) (hfinished : phase ≠ .finished) :
    ∃ t, Ends (GenerationCoordinator.publishPhase
        (DurableHandler.track (sinkOf repr on) request) phase) s (.ok ()) t ∧
      Grew on s t [progress] ∧ t.accepted = s.accepted := by
  have hsound : Sound request
      (if phase ∈ [.generating, .candidateAccepted, .finished] then
        some (min 0 request.totalIterations) else none) none none :=
    ⟨fun n hn => by split at hn <;> cases hn; exact Nat.min_le_right _ _, nofun, nofun⟩
  obtain ⟨t, hends, hgrew, haccepted, -⟩ := publish_room hrepr hs hroom hsound progress
  refine ⟨{ t with events := t.events + 1 }, ?_, hgrew.of_same rfl rfl rfl rfl rfl, haccepted⟩
  refine coordinator_publish_ok zero_inUnit ((Ends.present hvalue).seq ?_)
  have hplain : phase ∉ [GenerationPhase.candidateAccepted, .finished] := by
    simp [hphase, hfinished]
  dsimp only
  rw [if_neg (fun h => hphase h.1), if_neg hfinished, if_neg hplain, if_neg hplain]
  exact hends

theorem publishPhase_full {s : Reporting} (hfull : s.sequence = maxDurableProgressMessages)
    {phase : GenerationPhase} (hphase : phase ≠ .candidateAccepted) :
    Ends (GenerationCoordinator.publishPhase
      (DurableHandler.track (sinkOf repr true) request) phase) s (.error .value) s := by
  obtain ⟨progress, hvalue, -⟩ := ofValue_phase phase
  refine coordinator_publish_raises zero_inUnit ((Ends.present hvalue).seq ?_)
  rw [if_neg (fun h => hphase h.1)]
  exact publish_full hfull _ _ _ _

/-! ## Acceptances -/

theorem candidateStride_bounds (request : RepositoryGenerationRequest) :
    1 ≤ request.candidateStride ∧ request.candidateStride ≤ 27 := by
  have hceiling : request.candidateCeiling ≤ 3200 := by
    unfold RepositoryGenerationRequest.candidateCeiling
    cases h : request.stopping.maxSentences with
    | none =>
      have h1 := (totalIterations_bounds request).2
      have h2 := request.candidates.2
      exact Nat.mul_le_mul h1 h2
    | some n =>
      have := (request.stopping.sentences n h).2
      exact Nat.le_trans this (by omega)
  unfold RepositoryGenerationRequest.candidateStride RepositoryGenerationRequest.candidateBudget
    maxDurableProgressMessages
  omega

theorem ofValue_candidateAccepted :
    RunProgressPhase.ofValue GenerationPhase.candidateAccepted.value = some .candidateAccepted := by
  decide

/-- Among the `n` acceptances after the first `k`, those that are published. -/
def publishedAfter (stride k n : Nat) : Nat :=
  (List.range' (k + 1) n).countP fun i => i = 1 ∨ i % stride = 0

@[simp] theorem publishedAfter_zero (stride k : Nat) : publishedAfter stride k 0 = 0 := rfl

theorem publishedAfter_succ (stride k n : Nat) :
    publishedAfter stride k (n + 1) =
      (if k + 1 = 1 ∨ (k + 1) % stride = 0 then 1 else 0) + publishedAfter stride (k + 1) n := by
  unfold publishedAfter
  rw [List.range'_succ, List.countP_cons, Nat.add_comm]
  simp

/-- The acceptance is one the coordinator can report. -/
def Acceptance.Sound (a : Acceptance) : Prop := a.candidate.isSome = true ∧ a.coverage.InUnit

instance (a : Acceptance) : Decidable a.Sound := inferInstanceAs (Decidable (_ ∧ _))

/-- The acceptances before the first one that is not. -/
def heard (acceptances : List Acceptance) : List Acceptance :=
  acceptances.takeWhile fun a => a.Sound

/-- The acceptances keep pace with the messages. -/
def Paced (request : RepositoryGenerationRequest) (on : Bool) (s : Reporting) : Prop :=
  on = true → s.accepted < request.candidateStride * (s.sequence + 1)

theorem Paced.count {s : Reporting} (h : Paced request true s)
    (hlt : s.sequence < maxDurableProgressMessages) : s.accepted + 1 ≤ maxDurableProgressTotal := by
  have hstride := (candidateStride_bounds request).2
  have hpace := h rfl
  have hle : request.candidateStride * (s.sequence + 1) ≤ 27 * 128 :=
    Nat.mul_le_mul hstride hlt
  unfold maxDurableProgressTotal
  omega

include hrepr in
/-- One acceptance: counted, and published if its number is due. -/
theorem accepted_room {on : Bool} {s : Reporting} (hs : s.Counted) (hpaced : Paced request on s)
    (candidate : AcceptedCandidate) {coverage : Number} (hcoverage : coverage.InUnit)
    (hroom : Room on s (publishedAfter request.candidateStride s.accepted 1)) :
    ∃ t, Ends (GenerationCoordinator.accepted
        (DurableHandler.track (sinkOf repr on) request) candidate coverage) s (.ok ()) t ∧
      Grew on s t (List.replicate (publishedAfter request.candidateStride s.accepted 1)
        .candidateAccepted) ∧
      t.accepted = s.accepted + 1 ∧ Paced request on t := by
  have hstride := (candidateStride_bounds request).1
  by_cases hdue : s.accepted + 1 = 1 ∨ (s.accepted + 1) % request.candidateStride = 0
  · have hone : publishedAfter request.candidateStride s.accepted 1 = 1 := by
      rw [publishedAfter_succ, if_pos hdue, publishedAfter_zero]
    rw [hone] at hroom ⊢
    let counted : Reporting := { s with accepted := s.accepted + 1 }
    have hcounted : counted.Counted := ⟨hs.numbered, hs.counted, hs.latest, hs.valid, hs.bounded⟩
    have hroom' : Room on counted 1 := hroom
    have hends : ∃ t, Ends (DurableHandler.publish (sinkOf repr on) request .candidateAccepted
        (some (min candidate.iteration request.totalIterations)) (some coverage)
        (some (s.accepted + 1))) counted (.ok ()) t ∧ Grew on counted t [.candidateAccepted] ∧
        t.accepted = s.accepted + 1 ∧ t.events = s.events := by
      cases on with
      | false => exact ⟨counted, .pure () _, ⟨hcounted, ⟨[], by simp, rfl⟩, rfl, rfl⟩, rfl, rfl⟩
      | true =>
        refine publish_room hrepr hcounted hroom' ⟨?_, ?_, ?_⟩ _
        · intro n hn
          cases hn
          exact Nat.min_le_right _ _
        · intro x hx
          cases hx
          exact hcoverage
        · intro n hn
          cases hn
          exact hpaced.count (hroom rfl)
    obtain ⟨t, hends, hgrew, haccepted, -⟩ := hends
    refine ⟨{ t with events := t.events + 1 }, ?_, ?_, haccepted, fun hon => ?_⟩
    · refine (Ends.modify _ s).seq ((Ends.get _).seq (coordinator_publish_ok hcoverage
        ((Ends.present ofValue_candidateAccepted).seq ?_)))
      rw [if_neg (fun h => h.2 hdue), if_neg (by simp), if_pos (by simp), if_pos (by simp),
        if_pos (by simp)]
      exact hends
    · have hsame : Grew on counted { t with events := t.events + 1 } _ :=
        hgrew.of_same rfl rfl rfl rfl rfl
      exact ⟨hsame.counted, hsame.sent, hsame.sequence, hsame.last⟩
    · subst hon
      have hpace := hpaced rfl
      have hsequence : t.sequence = s.sequence + 1 := hgrew.sequence
      show t.accepted < request.candidateStride * (t.sequence + 1)
      rw [haccepted, hsequence, Nat.mul_succ]
      omega
  · have hnone : publishedAfter request.candidateStride s.accepted 1 = 0 := by
      rw [publishedAfter_succ, if_neg hdue, publishedAfter_zero]
    rw [hnone]
    refine ⟨{ s with accepted := s.accepted + 1, events := s.events + 1 }, ?_,
      (Grew.refl hs).of_same rfl rfl rfl rfl rfl, rfl, fun hon => ?_⟩
    · refine (Ends.modify _ s).seq ((Ends.get _).seq (coordinator_publish_ok
        (t := { s with accepted := s.accepted + 1 }) hcoverage
        ((Ends.present ofValue_candidateAccepted).seq ?_)))
      rw [if_pos ⟨rfl, hdue⟩]
      exact .pure () _
    · subst hon
      have hpace := hpaced rfl
      show s.accepted + 1 < request.candidateStride * (s.sequence + 1)
      refine lt_of_le_of_ne hpace fun heq => hdue (.inr ?_)
      rw [heq, Nat.mul_mod_right]

theorem accepted_full {s : Reporting} (hfull : s.sequence = maxDurableProgressMessages)
    {candidate : AcceptedCandidate} {coverage : Number} (hcoverage : coverage.InUnit)
    (hdue : s.accepted + 1 = 1 ∨ (s.accepted + 1) % request.candidateStride = 0) :
    Ends (GenerationCoordinator.accepted
      (DurableHandler.track (sinkOf repr true) request) candidate coverage) s (.error .value)
      { s with accepted := s.accepted + 1 } := by
  refine (Ends.modify _ s).seq ((Ends.get _).seq (coordinator_publish_raises hcoverage
    ((Ends.present ofValue_candidateAccepted).seq ?_)))
  rw [if_neg (fun h => h.2 hdue)]
  exact publish_full (s := { s with accepted := s.accepted + 1 }) hfull _ _ _ _

theorem heard_sound {a : Acceptance} (ha : a.Sound) (rest : List Acceptance) :
    heard (a :: rest) = a :: heard rest := by
  simp [heard, ha]

theorem heard_unsound {a : Acceptance} (ha : ¬ a.Sound) (rest : List Acceptance) :
    heard (a :: rest) = [] := by
  simp [heard, ha]

/-- An acceptance that cannot be reported raises, with or without progress. -/
theorem acceptAll_unsound (sink : GenerationProgress → Call Unit) (s : Reporting) {a : Acceptance}
    (ha : ¬ a.Sound) (rest : List Acceptance) :
    ∃ n, Ends (GenerationCoordinator.acceptAll sink (a :: rest)) s (.error .value)
      { s with accepted := n } := by
  cases hcandidate : a.candidate with
  | none => exact ⟨s.accepted, (Ends.absent hcandidate).stop⟩
  | some candidate =>
    refine ⟨s.accepted + 1, (Ends.present hcandidate).seq (Ends.stop ?_)⟩
    refine (Ends.modify _ s).seq ((Ends.get _).seq ?_)
    refine (Ends.get _).seq (Ends.refuse fun hvalid => ha ⟨?_, hvalid.coverage⟩).stop
    rw [hcandidate]
    rfl

theorem publishedAfter_split (stride k n : Nat) :
    publishedAfter stride k (n + 1) = publishedAfter stride k 1 + publishedAfter stride (k + 1) n := by
  rw [publishedAfter_succ, publishedAfter_succ stride k 0, publishedAfter_zero]
  rfl

theorem publishedAfter_one_le (stride k : Nat) : publishedAfter stride k 1 ≤ 1 := by
  rw [publishedAfter_succ, publishedAfter_zero]
  split <;> omega

theorem used_length {on : Bool} {s t : Reporting} {n : Nat} {phase : RunProgressPhase}
    (h : Grew on s t (List.replicate n phase)) : t.sequence = s.sequence + if on then n else 0 := by
  rw [h.sequence, List.length_replicate]

include hrepr in
/-- The acceptances of a loop, where all that are due can be published. -/
theorem acceptAll_room {on : Bool} {acceptances : List Acceptance} {s : Reporting} (hs : s.Counted)
    (hpaced : Paced request on s)
    (hroom : Room on s (publishedAfter request.candidateStride s.accepted (heard acceptances).length)) :
    ∃ t, Ends (GenerationCoordinator.acceptAll
        (DurableHandler.track (sinkOf repr on) request) acceptances) s
        (if ∀ a ∈ acceptances, a.Sound then .ok () else .error .value) t ∧
      Grew on s t (List.replicate
        (publishedAfter request.candidateStride s.accepted (heard acceptances).length)
        .candidateAccepted) ∧
      ((∀ a ∈ acceptances, a.Sound) →
        t.accepted = s.accepted + acceptances.length ∧ Paced request on t) := by
  induction acceptances generalizing s with
  | nil => exact ⟨s, .pure () s, .refl hs, fun _ => ⟨rfl, hpaced⟩⟩
  | cons a rest ih =>
    by_cases ha : a.Sound
    · rw [heard_sound ha, List.length_cons, publishedAfter_split] at hroom ⊢
      obtain ⟨candidate, hcandidate⟩ := Option.isSome_iff_exists.mp ha.1
      obtain ⟨t, hends, hgrew, haccepted, hpaced'⟩ := accepted_room hrepr hs hpaced
        candidate ha.2 (fun hon => by have := hroom hon; omega)
      have hroom' : Room on t
          (publishedAfter request.candidateStride t.accepted (heard rest).length) := by
        intro hon
        have hfits := hroom hon
        rw [used_length hgrew, haccepted, if_pos hon]
        omega
      obtain ⟨u, hends', hgrew', hall⟩ := ih hgrew.counted hpaced' hroom'
      rw [haccepted] at hgrew' hall
      refine ⟨u, ?_, ?_, fun heq => ?_⟩
      · have hall : (∀ b ∈ a :: rest, b.Sound) ↔ ∀ b ∈ rest, b.Sound := by simp [ha]
        rw [if_congr hall rfl rfl]
        exact (Ends.present hcandidate).seq (hends.seq hends')
      · rw [List.replicate_add]
        exact hgrew.trans hgrew'
      · obtain ⟨hlength, hp⟩ := hall fun b hb => heq b (List.mem_cons_of_mem a hb)
        exact ⟨by rw [hlength, List.length_cons]; omega, hp⟩
    · rw [heard_unsound ha] at hroom ⊢
      obtain ⟨n, hends⟩ := acceptAll_unsound
        (DurableHandler.track (sinkOf repr on) request) s ha rest
      rw [if_neg fun hall => ha (hall a List.mem_cons_self)]
      exact ⟨_, hends, (Grew.refl hs).of_same rfl rfl rfl rfl rfl,
        fun hall => absurd (hall a List.mem_cons_self) ha⟩

include hrepr in
/-- Where they cannot, the loop stops when all messages are used up. -/
theorem acceptAll_full {acceptances : List Acceptance} {s : Reporting} (hs : s.Counted)
    (hpaced : Paced request true s)
    (hover : maxDurableProgressMessages < s.sequence +
      publishedAfter request.candidateStride s.accepted (heard acceptances).length) :
    ∃ t, Ends (GenerationCoordinator.acceptAll
        (DurableHandler.track (sinkOf repr true) request) acceptances) s (.error .value) t ∧
      Grew true s t (List.replicate (maxDurableProgressMessages - s.sequence) .candidateAccepted) := by
  have hbound := hs.bounded
  induction acceptances generalizing s with
  | nil =>
    simp only [heard, List.takeWhile_nil, List.length_nil, publishedAfter_zero] at hover
    omega
  | cons a rest ih =>
    by_cases ha : a.Sound
    · rw [heard_sound ha, List.length_cons, publishedAfter_split] at hover
      obtain ⟨candidate, hcandidate⟩ := Option.isSome_iff_exists.mp ha.1
      have hone := publishedAfter_one_le request.candidateStride s.accepted
      by_cases hfits : s.sequence + publishedAfter request.candidateStride s.accepted 1 ≤
          maxDurableProgressMessages
      · obtain ⟨t, hends, hgrew, haccepted, hpaced'⟩ := accepted_room hrepr hs hpaced
          candidate ha.2 (fun _ => hfits)
        have hsequence : t.sequence =
            s.sequence + publishedAfter request.candidateStride s.accepted 1 := used_length hgrew
        obtain ⟨u, hends', hgrew'⟩ := ih hgrew.counted hpaced'
          (by rw [hsequence, haccepted]; omega) hgrew.counted.bounded
        refine ⟨u, (Ends.present hcandidate).seq (hends.seq hends'), ?_⟩
        have hcount : maxDurableProgressMessages - s.sequence =
            publishedAfter request.candidateStride s.accepted 1 +
              (maxDurableProgressMessages - t.sequence) := by omega
        rw [hcount, List.replicate_add]
        exact hgrew.trans hgrew'
      · have hfull : s.sequence = maxDurableProgressMessages := by omega
        have hdue : s.accepted + 1 = 1 ∨ (s.accepted + 1) % request.candidateStride = 0 := by
          by_contra hnot
          rw [publishedAfter_succ, if_neg hnot, publishedAfter_zero] at hfits
          omega
        refine ⟨_, (Ends.present hcandidate).seq
          (Ends.stop (accepted_full hfull ha.2 hdue)), ?_⟩
        have hnone : maxDurableProgressMessages - s.sequence = 0 := by omega
        rw [hnone]
        exact (Grew.refl hs).of_same rfl rfl rfl rfl rfl
    · rw [heard_unsound ha, List.length_nil, publishedAfter_zero] at hover
      omega

/-! ## The run -/

/-- What the engine's run amounts to. -/
def engineOutcome (engine : EngineRun) : Except Raised RepositoryGenerationResult :=
  if ∀ a ∈ engine.acceptances, a.Sound then
    match engine.finish with
    | .ok result => .ok result
    | .error e => .error (GenerationCoordinator.adapterRaised e)
  else .error (GenerationCoordinator.adapterRaised .value)

/-- The result, if the loop reported each of its candidates. -/
def reportedResult (engine : EngineRun) (result : RepositoryGenerationResult) :
    Except Raised RepositoryGenerationResult :=
  if result.accepted.length = engine.acceptances.length then .ok result
  else .error (.application .engineUnavailable "generation.progress")

/-- What the `try` of the coordinator amounts to. -/
def attemptOutcome (validate : Except Raised Unit) (engine : EngineRun) :
    Except Raised RepositoryGenerationResult :=
  validate.bind fun _ => (engineOutcome engine).bind (reportedResult engine)

/-- The acceptances that are due for publication. -/
def publishedAcceptances (request : RepositoryGenerationRequest) (engine : EngineRun) : Nat :=
  publishedAfter request.candidateStride 0 (heard engine.acceptances).length

/-- The phases it reports. -/
def attemptPhases (request : RepositoryGenerationRequest) (validate : Except Raised Unit)
    (engine : EngineRun) : List RunProgressPhase :=
  match validate with
  | .error _ => []
  | .ok () =>
    [.preparingRepository, .generating] ++
      List.replicate (publishedAcceptances request engine) .candidateAccepted ++
      if (attemptOutcome validate engine).isOk then [.stagingResult] else []

variable (request) in
include hrepr in
theorem runRepository_room (on : Bool) (engine : EngineRun) {s : Reporting} (hs : s.Counted)
    (hpaced : Paced request on s) (hfirst : s.accepted = 0)
    (hroom : Room on s (publishedAcceptances request engine)) :
    ∃ t, Ends (GenerationCoordinator.runRepository
        (DurableHandler.track (sinkOf repr on) request) engine) s (engineOutcome engine) t ∧
      Grew on s t (List.replicate (publishedAcceptances request engine) .candidateAccepted) ∧
      ((engineOutcome engine).isOk = true → t.accepted = engine.acceptances.length ∧
        Paced request on t) := by
  unfold publishedAcceptances at hroom ⊢
  rw [← hfirst] at hroom ⊢
  obtain ⟨t, hends, hgrew, hall⟩ := acceptAll_room hrepr hs hpaced hroom
  refine ⟨t, ?_, hgrew, fun hok => ?_⟩
  · unfold engineOutcome GenerationCoordinator.runRepository
    by_cases hsound : ∀ a ∈ engine.acceptances, a.Sound
    · rw [if_pos hsound] at hends ⊢
      cases hfinish : engine.finish with
      | ok result => exact (hends.seq (Ends.pure result t)).fine
      | error e => exact (hends.seq (Ends.throw e t)).caught (.throw _ t)
    · rw [if_neg hsound] at hends ⊢
      exact hends.stop.caught (.throw _ t)
  · have hsound : ∀ a ∈ engine.acceptances, a.Sound := by
      by_contra hnot
      unfold engineOutcome at hok
      rw [if_neg hnot] at hok
      cases hok
    obtain ⟨hlength, hp⟩ := hall hsound
    exact ⟨by rw [hlength, hfirst, Nat.zero_add], hp⟩

include hrepr in
/-- The coordinator's report of the result. -/
theorem publishFinished_room {on : Bool} {s : Reporting} (hs : s.Counted) (hroom : Room on s 1)
    (hpaced : Paced request on s) (result : RepositoryGenerationResult)
    (hcount : result.accepted.length = s.accepted) :
    ∃ t, Ends (GenerationCoordinator.publish (DurableHandler.track (sinkOf repr on) request)
        .finished result.iterations (some result.coverage) result.accepted.length none (some result))
        s (.ok ()) t ∧ Grew on s t [.stagingResult] ∧ t.accepted = s.accepted := by
  have hends : ∃ t, Ends (DurableHandler.publish (sinkOf repr on) request .stagingResult
      (some (min result.iterations request.totalIterations)) (some (some result.coverage))
      (some result.accepted.length)) s (.ok ()) t ∧ Grew on s t [.stagingResult] ∧
      t.accepted = s.accepted ∧ t.events = s.events := by
    cases on with
    | false => exact ⟨s, .pure () s, ⟨hs, ⟨[], by simp, rfl⟩, rfl, rfl⟩, rfl, rfl⟩
    | true =>
      refine publish_room hrepr hs hroom ⟨?_, ?_, ?_⟩ _
      · intro n hn
        cases hn
        exact Nat.min_le_right _ _
      · intro x hx
        cases hx
        exact ⟨_, rfl, result.unit⟩
      · intro n hn
        cases hn
        have := hpaced.count (hroom rfl)
        omega
  obtain ⟨t, hends, hgrew, haccepted, -⟩ := hends
  refine ⟨{ t with events := t.events + 1 }, ?_, hgrew.of_same rfl rfl rfl rfl rfl, haccepted⟩
  have hname : RunProgressPhase.ofValue GenerationPhase.finished.value = some .finished := by decide
  refine coordinator_publish_ok ⟨_, rfl, result.unit⟩ ((Ends.present hname).seq ?_)
  rw [if_neg (by simp), if_pos rfl, if_pos (by simp), if_pos (by simp), if_pos (by simp)]
  exact hends

theorem publishFinished_full {s : Reporting} (hfull : s.sequence = maxDurableProgressMessages)
    (result : RepositoryGenerationResult) :
    Ends (GenerationCoordinator.publish (DurableHandler.track (sinkOf repr true) request)
      .finished result.iterations (some result.coverage) result.accepted.length none (some result))
      s (.error .value) s := by
  have hname : RunProgressPhase.ofValue GenerationPhase.finished.value = some .finished := by decide
  refine coordinator_publish_raises ⟨_, rfl, result.unit⟩ ((Ends.present hname).seq ?_)
  rw [if_neg (by simp)]
  exact publish_full hfull _ _ _ _

theorem paced_of_first {on : Bool} {s : Reporting} (h : s.accepted = 0) : Paced request on s := by
  intro _
  have hstride := (candidateStride_bounds request).1
  rw [h]
  exact Nat.mul_pos hstride (Nat.succ_pos _)

theorem attemptPhases_ok {engine : EngineRun} {u : Unit} {result : RepositoryGenerationResult}
    (h : attemptOutcome (.ok u) engine = .ok result) : attemptPhases request (.ok u) engine =
      [.preparingRepository, .generating] ++
        List.replicate (publishedAcceptances request engine) .candidateAccepted ++
          [.stagingResult] := by
  unfold attemptPhases
  rw [h]
  rfl

theorem attemptPhases_error {engine : EngineRun} {u : Unit} {e : Raised}
    (h : attemptOutcome (.ok u) engine = .error e) : attemptPhases request (.ok u) engine =
      [.preparingRepository, .generating] ++
        List.replicate (publishedAcceptances request engine) .candidateAccepted := by
  unfold attemptPhases
  rw [h]
  exact List.append_nil _

variable (request) in
theorem attemptPhases_length (engine : EngineRun) (u : Unit) :
    2 + publishedAcceptances request engine ≤ (attemptPhases request (.ok u) engine).length := by
  cases h : attemptOutcome (.ok u) engine with
  | ok result => rw [attemptPhases_ok h]; simp; omega
  | error e => rw [attemptPhases_error h]; simp; omega

variable (request) in
include hrepr in
/-- Before the engine runs. -/
theorem attempt_begins (on : Bool) {s : Reporting} (hs : s.Counted) (hfirst : s.accepted = 0)
    (hroom : Room on s 2) (engine : EngineRun) :
    ∃ t, Grew on s t [.preparingRepository, .generating] ∧ t.accepted = 0 ∧
      ∀ {u r w}, Ends (GenerationCoordinator.generate
          (DurableHandler.track (sinkOf repr on) request) engine) t r w →
        Ends (GenerationCoordinator.attempt (DurableHandler.track (sinkOf repr on) request)
          (.ok u) engine) s r w := by
  have hprepare : RunProgressPhase.ofValue GenerationPhase.preparingRepository.value =
      some .preparingRepository := by decide
  have hgenerate : RunProgressPhase.ofValue GenerationPhase.generating.value =
      some .generating := by decide
  obtain ⟨t, hends, hgrew, hfirst'⟩ := publishPhase_room hrepr request on hs
    (fun hon => by have := hroom hon; omega) hprepare (by decide) (by decide)
  have ht : t.sequence = s.sequence + if on then 1 else 0 := hgrew.sequence
  obtain ⟨u, hends', hgrew', hfirst''⟩ := publishPhase_room hrepr request on hgrew.counted
    (fun hon => by have := hroom hon; rw [ht, if_pos hon]; omega) hgenerate (by decide) (by decide)
  refine ⟨u, hgrew.trans hgrew', by rw [hfirst'', hfirst', hfirst], fun {x r w} h => ?_⟩
  exact (Ends.pure x s).seq (hends.seq (hends'.seq h))

theorem begun_sequence {on : Bool} {s t : Reporting}
    (h : Grew on s t [.preparingRepository, .generating]) :
    t.sequence = s.sequence + if on then 2 else 0 := h.sequence

variable (request) in
include hrepr in
/-- The `try` of the coordinator, where everything it has to report finds room. -/
theorem attempt_room (on : Bool) (validate : Except Raised Unit) (engine : EngineRun)
    {s : Reporting} (hs : s.Counted) (hfirst : s.accepted = 0)
    (hroom : Room on s (attemptPhases request validate engine).length) :
    ∃ t, Ends (GenerationCoordinator.attempt (DurableHandler.track (sinkOf repr on) request)
        validate engine) s (attemptOutcome validate engine) t ∧
      Grew on s t (attemptPhases request validate engine) ∧
      ∀ result, attemptOutcome validate engine = .ok result →
        result.accepted.length = t.accepted ∧ Paced request on t := by
  cases validate with
  | error e => exact ⟨s, (Ends.throw e s).stop, .refl hs, nofun⟩
  | ok u =>
    have hlength := attemptPhases_length request engine u
    obtain ⟨u', hgrew, hzero, hstart⟩ := attempt_begins hrepr request on hs hfirst
      (fun hon => by have := hroom hon; omega) engine
    have hu := begun_sequence hgrew
    obtain ⟨v, hrun, hgrew'', hok⟩ := runRepository_room hrepr request on engine hgrew.counted
      (paced_of_first hzero) hzero
      (fun hon => by have := hroom hon; rw [hu, if_pos hon]; omega)
    have hv := used_length hgrew''
    have hbefore := hgrew.trans hgrew''
    cases hengine : engineOutcome engine with
    | error e =>
      have houtcome : attemptOutcome (.ok u) engine = .error e := by
        show (engineOutcome engine).bind (reportedResult engine) = _
        rw [hengine]
        rfl
      rw [hengine] at hrun
      rw [attemptPhases_error houtcome, houtcome]
      exact ⟨v, hstart hrun.stop, hbefore, nofun⟩
    | ok result =>
      have houtcome : attemptOutcome (.ok u) engine = reportedResult engine result := by
        show (engineOutcome engine).bind (reportedResult engine) = _
        rw [hengine]
        rfl
      obtain ⟨hcount, hpaced⟩ := hok (by rw [hengine]; rfl)
      rw [hengine] at hrun
      unfold reportedResult at houtcome
      by_cases hsame : result.accepted.length = engine.acceptances.length
      · rw [if_pos hsame] at houtcome
        rw [attemptPhases_ok houtcome] at hroom ⊢
        obtain ⟨w, hfinish, hgrew3, haccepted⟩ := publishFinished_room hrepr hgrew''.counted
          (fun hon => by
            have := hroom hon
            simp only [List.length_append, List.length_cons, List.length_nil,
              List.length_replicate] at this
            rw [hv, hu, if_pos hon, if_pos hon]
            omega) hpaced result (hsame.trans hcount.symm)
        rw [houtcome]
        refine ⟨w, hstart (hrun.seq ((Ends.get v).seq ((Ends.require (hsame.trans hcount.symm)).seq
          (hfinish.seq (Ends.pure result w))))), hbefore.trans hgrew3, fun r hr => ?_⟩
        cases hr
        refine ⟨by rw [haccepted, hcount, hsame], fun hon => ?_⟩
        have hpace := hpaced hon
        have hsequence : w.sequence = v.sequence + if on then 1 else 0 := hgrew3.sequence
        rw [haccepted, hsequence, if_pos hon]
        exact Nat.lt_of_lt_of_le hpace (Nat.mul_le_mul_left _ (by omega))
      · rw [if_neg hsame] at houtcome
        rw [attemptPhases_error houtcome, houtcome]
        refine ⟨v, hstart (hrun.seq ((Ends.get v).seq (Ends.refuse fun heq => ?_).stop)), hbefore,
          nofun⟩
        exact hsame (heq.trans hcount)

theorem replicate_live {n : Nat} : ∀ phase ∈ List.replicate n RunProgressPhase.candidateAccepted,
    ¬ phase.Terminal := by
  intro phase hphase
  rw [List.eq_of_mem_replicate hphase]
  unfold RunProgressPhase.Terminal
  simp

theorem attemptPhases_live (validate : Except Raised Unit) (engine : EngineRun) :
    ∀ phase ∈ attemptPhases request validate engine, ¬ phase.Terminal := by
  intro phase hphase
  unfold attemptPhases at hphase
  cases validate with
  | error e => exact absurd hphase List.not_mem_nil
  | ok u =>
    simp only [List.mem_append] at hphase
    rcases hphase with (hphase | hphase) | hphase
    · simp only [List.mem_cons, List.not_mem_nil, or_false] at hphase
      unfold RunProgressPhase.Terminal
      rcases hphase with rfl | rfl <;> simp
    · exact replicate_live phase hphase
    · split at hphase
      · rw [List.mem_singleton.mp hphase]
        unfold RunProgressPhase.Terminal
        simp
      · exact absurd hphase List.not_mem_nil

variable (request) in
include hrepr in
/-- Where it does not, all messages are used up and none of them is terminal. -/
theorem attempt_full (validate : Except Raised Unit) (engine : EngineRun)
    {s : Reporting} (hs : s.Counted) (hfirst : s.accepted = 0) (hsequence : s.sequence = 1)
    (hover : maxDurableProgressMessages < s.sequence + (attemptPhases request validate engine).length) :
    ∃ e t phases, Ends (GenerationCoordinator.attempt (DurableHandler.track (sinkOf repr true) request)
        validate engine) s (.error e) t ∧ Grew true s t phases ∧
      t.sequence = maxDurableProgressMessages ∧ ∀ phase ∈ phases, ¬ phase.Terminal := by
  have hlimit : maxDurableProgressMessages = 128 := rfl
  cases validate with
  | error e =>
    simp only [attemptPhases, List.length_nil] at hover
    omega
  | ok u =>
    obtain ⟨t, hgrew, hzero, hstart⟩ := attempt_begins hrepr request true hs hfirst
      (fun _ => by omega) engine
    have ht : t.sequence = s.sequence + 2 := hgrew.sequence
    have hlive : ∀ phase ∈ [RunProgressPhase.preparingRepository, .generating], ¬ phase.Terminal := by
      intro phase hphase
      simp only [List.mem_cons, List.not_mem_nil, or_false] at hphase
      unfold RunProgressPhase.Terminal
      rcases hphase with rfl | rfl <;> simp
    by_cases hfits : t.sequence + publishedAcceptances request engine ≤ maxDurableProgressMessages
    · obtain ⟨v, hrun, hgrew', hok⟩ := runRepository_room hrepr request true engine hgrew.counted
        (paced_of_first hzero) hzero (fun _ => hfits)
      have hv : v.sequence = t.sequence + publishedAcceptances request engine := by
        rw [used_length hgrew', if_pos rfl]
      cases houtcome : attemptOutcome (.ok u) engine with
      | error e =>
        rw [attemptPhases_error houtcome] at hover
        simp only [List.length_append, List.length_cons, List.length_nil,
          List.length_replicate] at hover
        omega
      | ok result =>
        rw [attemptPhases_ok houtcome] at hover
        simp only [List.length_append, List.length_cons, List.length_nil,
          List.length_replicate] at hover
        have hengine : engineOutcome engine = .ok result ∧
            result.accepted.length = engine.acceptances.length := by
          have heq : (engineOutcome engine).bind (reportedResult engine) = .ok result := houtcome
          cases hengine : engineOutcome engine with
          | error e => rw [hengine] at heq; cases heq
          | ok r =>
            rw [hengine] at heq
            have heq' : reportedResult engine r = .ok result := heq
            unfold reportedResult at heq'
            split at heq'
            · next hsame => cases heq'; exact ⟨rfl, hsame⟩
            · cases heq'
        obtain ⟨hengine, hsame⟩ := hengine
        obtain ⟨hcount, -⟩ := hok (by rw [hengine]; rfl)
        rw [hengine] at hrun
        have hfull : v.sequence = maxDurableProgressMessages := by
          have := hgrew'.counted.bounded
          omega
        refine ⟨.value, v, _, hstart (hrun.seq ((Ends.get v).seq
          ((Ends.require (hsame.trans hcount.symm)).seq (publishFinished_full hfull result).stop))),
          hgrew.trans hgrew', hfull, fun phase hphase => ?_⟩
        rcases List.mem_append.mp hphase with h | h
        · exact hlive phase h
        · exact replicate_live phase h
    · have hpublished : publishedAcceptances request engine =
          publishedAfter request.candidateStride t.accepted (heard engine.acceptances).length := by
        rw [hzero]
        rfl
      obtain ⟨v, hends, hgrew'⟩ := acceptAll_full hrepr hgrew.counted
        (paced_of_first hzero) (by rw [← hpublished]; omega)
      have hfull : v.sequence = maxDurableProgressMessages := by
        have hgrown : v.sequence = t.sequence + (maxDurableProgressMessages - t.sequence) :=
          used_length hgrew'
        omega
      refine ⟨_, v, _, hstart (Ends.stop (hends.stop.caught (Ends.throw _ v))),
        hgrew.trans hgrew', hfull, fun phase hphase => ?_⟩
      rcases List.mem_append.mp hphase with h | h
      · exact hlive phase h
      · exact replicate_live phase h

/-- The messages a run has to send: its phases, the acceptances that are due, and one that
says how it ended. -/
def neededMessages (request : RepositoryGenerationRequest) (validate : Except Raised Unit)
    (engine : EngineRun) : Nat :=
  1 + (attemptPhases request validate engine).length + 1

theorem validating_value :
    RunProgressPhase.ofValue GenerationPhase.validating.value = some .validating := by decide

theorem failed_value :
    RunProgressPhase.ofValue GenerationPhase.failed.value = some .failed := by decide

/-- What the coordinator amounts to. -/
def executeOutcome (validate : Except Raised Unit) (engine : EngineRun) :
    Except Raised RepositoryGenerationResult :=
  (attemptOutcome validate engine).mapError GenerationCoordinator.executeRaised

variable (request) in
include hrepr in
/-- The coordinator, where there is room: the terminal message of a run that failed is its. -/
theorem execute_room (on : Bool) (validate : Except Raised Unit) (engine : EngineRun)
    (hroom : on = true → neededMessages request validate engine ≤ maxDurableProgressMessages) :
    ∃ t, Ends (GenerationCoordinator.execute (DurableHandler.track (sinkOf repr on) request)
        validate engine) {} (executeOutcome validate engine) t ∧
      Grew on {} t (.validating :: attemptPhases request validate engine ++
        if (attemptOutcome validate engine).isOk then [] else [.failed]) ∧
      ∀ result, attemptOutcome validate engine = .ok result →
        result.accepted.length = t.accepted ∧ Paced request on t := by
  have hlimit : maxDurableProgressMessages = 128 := rfl
  unfold neededMessages at hroom
  obtain ⟨s, hends, hgrew, hfirst⟩ := publishPhase_room hrepr request on Reporting.counted_initial
    (fun _ => by show 0 + 1 ≤ _; omega) validating_value (by decide) (by decide)
  have hs : s.sequence = 0 + if on then 1 else 0 := hgrew.sequence
  obtain ⟨t, hattempt, hgrew', hcount⟩ := attempt_room hrepr request on validate engine
    hgrew.counted hfirst (fun hon => by
      have := hroom hon
      rw [hs, if_pos hon]
      omega)
  have hboth := hgrew.trans hgrew'
  unfold executeOutcome
  cases houtcome : attemptOutcome validate engine with
  | ok result =>
    rw [houtcome] at hattempt
    refine ⟨t, hends.seq hattempt.fine, ?_, fun r hr => hcount r (houtcome.trans hr)⟩
    have hnil : (if (Except.ok result : Except Raised RepositoryGenerationResult).isOk then []
        else [RunProgressPhase.failed]) = [] := rfl
    rw [hnil, List.append_nil]
    exact hboth
  | error e =>
    rw [houtcome] at hattempt
    have ht : t.sequence = s.sequence + if on then (attemptPhases request validate engine).length
        else 0 := hgrew'.sequence
    obtain ⟨u, hfailed, hgrew'', -⟩ := publishPhase_room hrepr request on hgrew'.counted
      (fun hon => by
        have := hroom hon
        rw [ht, hs, if_pos hon, if_pos hon]
        omega) failed_value (by decide) (by decide)
    refine ⟨u, hends.seq (hattempt.caught (hfailed.seq (Ends.throw _ u))), hboth.trans hgrew'',
      nofun⟩

/-- What a run amounts to, with or without progress. -/
def handlerOutcome (staging : Staging) (validate : Except Raised Unit) (engine : EngineRun) :
    Except Raised StagedArtifactResult :=
  match executeOutcome validate engine with
  | .error e => .error e
  | .ok result =>
    match staging.claim result with
    | .ok claim => .ok claim
    | .error .value =>
      .error (.application .engineContractViolation "generation.repository.artifact.staging_reference")
    | .error e => .error e

/-- The coordinator only raises application errors. -/
theorem executeOutcome_error {validate : Except Raised Unit} {engine : EngineRun} {e : Raised}
    (h : executeOutcome validate engine = .error e) :
    (attemptOutcome validate engine).isOk = false ∧
      ∃ code operation, e = .application code operation := by
  unfold executeOutcome at h
  cases houtcome : attemptOutcome validate engine with
  | ok result => rw [houtcome] at h; cases h
  | error e' =>
    rw [houtcome] at h
    obtain rfl := Except.error.inj h
    refine ⟨rfl, ?_⟩
    cases e' <;> exact ⟨_, _, rfl⟩

theorem executeOutcome_ok {validate : Except Raised Unit} {engine : EngineRun}
    {result : RepositoryGenerationResult} (h : executeOutcome validate engine = .ok result) :
    attemptOutcome validate engine = .ok result := by
  unfold executeOutcome at h
  cases houtcome : attemptOutcome validate engine with
  | ok r =>
    rw [houtcome] at h
    cases h
    rfl
  | error e => rw [houtcome] at h; cases h

theorem terminal_finished : RunProgressPhase.finished.Terminal := .inl rfl

theorem terminal_failed : RunProgressPhase.failed.Terminal := .inr rfl

/-- A live stretch does not end with `failed`. -/
theorem Grew.not_failed {on : Bool} {t : Reporting} {phases : List RunProgressPhase}
    (h : Grew on {} t phases) (hlive : ∀ phase ∈ phases, ¬ phase.Terminal) :
    t.lastPhase ≠ some .failed := by
  have hlast := h.last
  intro hfailed
  rw [hfailed] at hlast
  cases on with
  | false => cases hlast
  | true =>
    rw [if_pos rfl, Option.or_none] at hlast
    exact hlive _ (List.mem_of_getLast? hlast.symm) terminal_failed

include hrepr in
/-- The handler's own last message. -/
theorem publish_last {on : Bool} {t : Reporting} (ht : t.Counted) (hroom : Room on t 1)
    (hpaced : Paced request on t) (result : RepositoryGenerationResult)
    (hcount : result.accepted.length = t.accepted) :
    ∃ u, Ends (DurableHandler.publish (sinkOf repr on) request .finished
        (some (min result.iterations request.totalIterations)) (some (some result.coverage))
        (some result.accepted.length)) t (.ok ()) u ∧ Grew on t u [.finished] := by
  cases on with
  | false => exact ⟨t, .pure () t, ht, ⟨[], by simp, rfl⟩, rfl, rfl⟩
  | true =>
    have hsound : Sound request (some (min result.iterations request.totalIterations))
        (some (some result.coverage)) (some result.accepted.length) := by
      refine ⟨fun n hn => ?_, fun x hx => ?_, fun n hn => ?_⟩
      · cases hn
        exact Nat.min_le_right _ _
      · cases hx
        exact ⟨_, rfl, result.unit⟩
      · cases hn
        have := hpaced.count (hroom rfl)
        omega
    obtain ⟨u, hends, hgrew, -⟩ := publish_room hrepr ht hroom hsound .finished
    exact ⟨u, hends, hgrew⟩

variable (request) in
include hrepr in
/-- Where there is room for every message, the run amounts to the same with and without
progress, and the last message is the only terminal one. -/
theorem handler_room (on : Bool) (staging : Staging) (validate : Except Raised Unit)
    (engine : EngineRun)
    (hroom : on = true → neededMessages request validate engine ≤ maxDurableProgressMessages) :
    ∃ t terminal, Ends (DurableHandler.execute (sinkOf repr on) request staging validate engine) {}
        (handlerOutcome staging validate engine) t ∧
      Grew on {} t (.validating :: attemptPhases request validate engine ++ [terminal]) ∧
      terminal.Terminal := by
  obtain ⟨t, hends, hgrew, hcount⟩ := execute_room hrepr request on validate engine hroom
  have hlive : ∀ phase ∈ RunProgressPhase.validating :: attemptPhases request validate engine,
      ¬ phase.Terminal := by
    intro phase hphase
    rcases List.mem_cons.mp hphase with rfl | h
    · unfold RunProgressPhase.Terminal
      simp
    · exact attemptPhases_live validate engine phase h
  unfold handlerOutcome
  cases houtcome : executeOutcome validate engine with
  | error e =>
    obtain ⟨hok, code, operation, rfl⟩ := executeOutcome_error houtcome
    rw [houtcome] at hends
    rw [hok, if_neg Bool.false_ne_true] at hgrew
    refine ⟨t, .failed, hends.stop.caught ((Ends.get t).seq ?_), hgrew, terminal_failed⟩
    cases on with
    | false =>
      split
      · exact (Ends.pure () t).seq (Ends.throw _ t)
      · exact Ends.throw _ t
    | true =>
      have hlast : t.lastPhase = some .failed := by
        have hlast := hgrew.last
        rw [if_pos rfl, Option.or_none, List.getLast?_concat] at hlast
        exact hlast
      rw [if_neg (fun h => h hlast)]
      exact Ends.throw _ t
  | ok result =>
    have hattempt := executeOutcome_ok houtcome
    obtain ⟨haccepted, hpaced⟩ := hcount result hattempt
    rw [houtcome] at hends
    have hnil : (if (attemptOutcome validate engine).isOk then []
        else [RunProgressPhase.failed]) = [] := by
      rw [hattempt]
      rfl
    rw [hnil, List.append_nil] at hgrew
    have hlast := hgrew.not_failed hlive
    have hroom' : Room on t 1 := fun hon => by
      have hneeded := hroom hon
      unfold neededMessages at hneeded
      have hsequence := hgrew.sequence
      rw [if_pos hon, List.length_cons] at hsequence
      have hzero : ({} : Reporting).sequence = 0 := rfl
      omega
    have hfailing : ∀ e, Ends (DurableHandler.attempt (sinkOf repr on) request staging validate engine)
        {} (.error e) t → e ≠ .value →
        ∃ u, Ends (DurableHandler.execute (sinkOf repr on) request staging validate engine) {}
          (.error e) u ∧ Grew on {} u (.validating :: attemptPhases request validate engine ++
            [.failed]) := by
      intro e hraise hother
      obtain ⟨u, hpublish, hgrew', -⟩ := publish_room hrepr hgrew.counted hroom' Sound.none .failed
      refine ⟨u, hraise.caught ?_, hgrew.trans hgrew'⟩
      cases e with
      | value => exact absurd rfl hother
      | _ =>
        refine (Ends.get t).seq ?_
        rw [if_pos hlast]
        exact hpublish.seq (Ends.throw _ u)
    dsimp only
    cases hclaim : staging.claim result with
    | ok claim =>
      obtain ⟨u, hpublish, hgrew'⟩ := publish_last hrepr hgrew.counted hroom' hpaced result haccepted
      refine ⟨u, .finished, Ends.fine (hends.seq ?_), hgrew.trans hgrew', terminal_finished⟩
      rw [hclaim]
      exact (Ends.pure claim t).seq (hpublish.seq (Ends.pure claim u))
    | error e =>
      have hraise : Ends (DurableHandler.attempt (sinkOf repr on) request staging validate engine)
          {} (.error e) t := by
        refine hends.seq (Ends.stop ?_)
        rw [hclaim]
        exact Ends.throw e t
      cases e with
      | value =>
        obtain ⟨u, hpublish, hgrew', -⟩ := publish_room hrepr hgrew.counted hroom' Sound.none .failed
        exact ⟨u, .failed, hraise.caught (hpublish.seq (Ends.throw _ u)), hgrew.trans hgrew',
          terminal_failed⟩
      | _ =>
        obtain ⟨u, hends', hgrew'⟩ := hfailing _ hraise (by simp)
        exact ⟨u, .failed, hends', hgrew', terminal_failed⟩

variable (request) in
include hrepr in
/-- Where there is none, the run raises after 128 messages of which none is terminal. -/
theorem handler_full (staging : Staging) (validate : Except Raised Unit) (engine : EngineRun)
    (hover : maxDurableProgressMessages < neededMessages request validate engine) :
    ∃ t phases, Ends (DurableHandler.execute (sinkOf repr true) request staging validate engine) {}
        (.error .value) t ∧
      Grew true {} t phases ∧ ∀ phase ∈ phases, ¬ phase.Terminal := by
  have hlimit : maxDurableProgressMessages = 128 := rfl
  have hfinish : ∀ {t phases}, Grew true {} t phases →
      t.sequence = maxDurableProgressMessages → (∀ phase ∈ phases, ¬ phase.Terminal) →
      ∀ {e : Raised}, Ends (DurableHandler.attempt (sinkOf repr true) request staging validate engine)
        {} (.error e) t →
      ∃ t phases, Ends (DurableHandler.execute (sinkOf repr true) request staging validate engine) {}
          (.error .value) t ∧ Grew true {} t phases ∧ ∀ phase ∈ phases, ¬ phase.Terminal := by
    intro t phases hgrew hfull hlive e hraise
    refine ⟨t, phases, hraise.caught ?_, hgrew, hlive⟩
    have hpublish : Ends (DurableHandler.publish (sinkOf repr true) request .failed none none none)
        t (.error .value) t := publish_full hfull _ _ _ _
    cases e with
    | value => exact hpublish.stop
    | _ =>
      refine (Ends.get t).seq ?_
      rw [if_pos (hgrew.not_failed hlive)]
      exact hpublish.stop
  unfold neededMessages at hover
  obtain ⟨s, hends, hgrew, hfirst⟩ := publishPhase_room hrepr request true Reporting.counted_initial
    (fun _ => by show 0 + 1 ≤ _; omega) validating_value (by decide) (by decide)
  have hs : s.sequence = 1 := hgrew.sequence
  have hlive : ∀ {phases : List RunProgressPhase}, (∀ phase ∈ phases, ¬ phase.Terminal) →
      ∀ phase ∈ [RunProgressPhase.validating] ++ phases, ¬ phase.Terminal := by
    intro phases hphases phase hphase
    rcases List.mem_cons.mp hphase with rfl | h
    · unfold RunProgressPhase.Terminal
      simp
    · exact hphases phase h
  by_cases hfits : 1 + (attemptPhases request validate engine).length ≤ maxDurableProgressMessages
  · obtain ⟨t, hattempt, hgrew', hcount⟩ := attempt_room hrepr request true validate engine
      hgrew.counted hfirst (fun _ => by rw [hs]; exact hfits)
    have hsequence : t.sequence = s.sequence + (attemptPhases request validate engine).length :=
      hgrew'.sequence
    have hfull : t.sequence = maxDurableProgressMessages := by omega
    have hboth := hgrew.trans hgrew'
    have hphases : ∀ phase ∈ [RunProgressPhase.validating] ++ attemptPhases request validate engine,
        ¬ phase.Terminal := hlive (attemptPhases_live validate engine)
    cases houtcome : attemptOutcome validate engine with
    | error e =>
      rw [houtcome] at hattempt
      have hfailed : Ends (GenerationCoordinator.publishPhase
          (DurableHandler.track (sinkOf repr true) request) .failed) t (.error .value) t :=
        publishPhase_full hfull (by decide)
      exact hfinish hboth hfull hphases (hends.seq (hattempt.caught hfailed.stop)).stop
    | ok result =>
      rw [houtcome] at hattempt
      have hexecute : Ends (GenerationCoordinator.execute (DurableHandler.track (sinkOf repr true)
          request) validate engine) {} (.ok result) t := hends.seq (Ends.fine hattempt)
      cases hclaim : staging.claim result with
      | error e =>
        refine hfinish hboth hfull hphases (hexecute.seq (Ends.stop (e := e) ?_))
        rw [hclaim]
        exact Ends.throw e t
      | ok claim =>
        refine hfinish hboth hfull hphases (hexecute.seq (Ends.seq (a := claim) (t := t) ?_
          (publish_full hfull _ _ _ _).stop))
        rw [hclaim]
        exact Ends.pure claim t
  · obtain ⟨e, t, phases, hattempt, hgrew', hfull, hphases⟩ := attempt_full hrepr request
      validate engine hgrew.counted hfirst hs (by rw [hs]; omega)
    have hfailed : Ends (GenerationCoordinator.publishPhase
        (DurableHandler.track (sinkOf repr true) request) .failed) t (.error .value) t :=
      publishPhase_full hfull (by decide)
    exact hfinish (hgrew.trans hgrew') hfull (hlive hphases)
      (hends.seq (hattempt.caught hfailed.stop)).stop

end Handler

/-! ## What a run reports -/

/-- A complete report: numbered from zero, valid, and with one terminal message, the last. -/
structure ProperlyReported (messages : List DurableRunProgress) : Prop where
  bounded : messages.length ≤ maxDurableProgressMessages
  valid : ∀ p ∈ messages, p.Valid
  numbered : messages.map (·.sequence) = List.range messages.length
  ended : ∃ before last, messages = before ++ [last] ∧ last.phase.Terminal ∧
    ∀ p ∈ before, ¬ p.phase.Terminal

/-- The run reports properly, neither process refuses a message, and the result is that of
the run without progress. -/
structure ProgressHarmless (repr : ℚ → Json.FloatText) (request : RepositoryGenerationRequest)
    (staging : Staging) (validate : Except Raised Unit) (engine : EngineRun) : Prop where
  reported : ProperlyReported (withProgress repr request staging validate engine).2.sent
  child : (withProgress repr request staging validate engine).1 ≠ .error invalidProgress
  parent : ∃ state, parentReceive repr (-1) 0
    (withProgress repr request staging validate engine).2.sent = .ok state
  same : (withProgress repr request staging validate engine).1 =
    (withoutProgress request staging validate engine).1

/-- The parent takes messages that continue the count. -/
theorem parentReceive_ok {repr : ℚ → Json.FloatText} (hrepr : ∀ q, (repr q).chars.length ≤ 24)
    {messages : List DurableRunProgress} {k : Nat} (hvalid : ∀ p ∈ messages, p.Valid)
    (hnumbered : messages.map (·.sequence) = List.range' k messages.length)
    (hbound : k + messages.length ≤ maxDurableProgressMessages) :
    ∃ state, parentReceive repr ((k : Int) - 1) k messages = .ok state := by
  induction messages generalizing k with
  | nil => exact ⟨_, rfl⟩
  | cons p rest ih =>
    rw [List.map_cons, List.length_cons, List.range'_succ] at hnumbered
    rw [List.length_cons] at hbound
    obtain ⟨hsequence, hrest⟩ := List.cons.inj hnumbered
    have hp := hvalid p List.mem_cons_self
    have hbytes := encodeProgress_bytes hrepr hp
    obtain ⟨state, hstate⟩ := ih (fun q hq => hvalid q (List.mem_cons_of_mem p hq)) hrest (by omega)
    refine ⟨state, ?_⟩
    rw [parentReceive, if_neg (by omega), if_neg (fun h => h hp), if_neg (by omega), hsequence]
    rw [show ((k + 1 : Nat) : Int) - 1 = (k : Int) by omega] at hstate
    exact hstate

theorem StagedArtifactResult.build_error {reference : String} {size : Nat} {e : Raised}
    (h : StagedArtifactResult.build reference size = .error e) : e = .value := by
  unfold StagedArtifactResult.build at h
  split at h
  · split at h
    · cases h
    · exact (Except.error.inj h).symm
  · exact (Except.error.inj h).symm

theorem claim_error {staging : Staging} {result : RepositoryGenerationResult} {e : Raised}
    (h : staging.claim result = .error e) :
    e = .value ∨ ∃ code operation, e = .application code operation := by
  unfold Staging.claim at h
  dsimp only at h
  split at h
  · exact .inr ⟨_, _, (Except.error.inj h).symm⟩
  · split at h
    · exact .inr ⟨_, _, (Except.error.inj h).symm⟩
    · split at h
      · next hbuild =>
        left
        rw [← Except.error.inj h]
        exact StagedArtifactResult.build_error hbuild
      · split at h
        · exact .inr ⟨_, _, (Except.error.inj h).symm⟩
        · cases h

theorem outcome_not_invalid (staging : Staging) (validate : Except Raised Unit)
    (engine : EngineRun) : handlerOutcome staging validate engine ≠ .error invalidProgress := by
  unfold handlerOutcome
  cases houtcome : executeOutcome validate engine with
  | error e =>
    obtain ⟨-, code, operation, rfl⟩ := executeOutcome_error houtcome
    simp [invalidProgress]
  | ok result =>
    dsimp only
    cases hclaim : staging.claim result with
    | ok claim => simp
    | error e =>
      rcases claim_error hclaim with rfl | ⟨code, operation, rfl⟩ <;> simp [invalidProgress]

section Law

variable {repr : ℚ → Json.FloatText} (hrepr : ∀ q, (repr q).chars.length ≤ 24)
  (request : RepositoryGenerationRequest) (staging : Staging) (validate : Except Raised Unit)
  (engine : EngineRun)

include hrepr in
/-- Without progress nothing is in the way of the result. -/
theorem withoutProgress_outcome :
    (withoutProgress request staging validate engine).1 = handlerOutcome staging validate engine := by
  obtain ⟨t, -, hends, -, -⟩ := handler_room hrepr request false staging validate engine nofun
  have hwithout : withoutProgress request staging validate engine =
      (handlerOutcome staging validate engine, t) := hends
  rw [hwithout]

include hrepr in
theorem harmless_of_room
    (hroom : neededMessages request validate engine ≤ maxDurableProgressMessages) :
    ProgressHarmless repr request staging validate engine := by
  obtain ⟨t, terminal, hends, hgrew, hterminal⟩ := handler_room hrepr request true staging validate
    engine fun _ => hroom
  have hwith : withProgress repr request staging validate engine =
      (handlerOutcome staging validate engine, t) := hends
  have hlength : t.sent.length = t.sequence := by
    have := congrArg List.length hgrew.counted.numbered
    rwa [List.length_map, List.length_range] at this
  have hnumbered := hgrew.counted.numbered
  rw [← hlength] at hnumbered
  have hbound := hgrew.counted.bounded
  rw [← hlength] at hbound
  refine ⟨?_, ?_, ?_, ?_⟩
  · rw [hwith]
    refine ⟨hbound, hgrew.counted.valid, hnumbered, ?_⟩
    obtain ⟨messages, hsent, hphases⟩ := hgrew.sent
    rw [if_pos rfl] at hphases
    obtain ⟨before, after, rfl, hbefore, hafter⟩ := List.map_eq_append_iff.mp hphases
    obtain ⟨last, rfl, hlast⟩ : ∃ last, after = [last] ∧ last.phase = terminal := by
      cases after with
      | nil => cases hafter
      | cons last rest =>
        rw [List.map_cons] at hafter
        obtain ⟨h1, h2⟩ := List.cons.inj hafter
        exact ⟨last, by rw [List.map_eq_nil_iff.mp h2], h1⟩
    refine ⟨before, last, hsent.trans (List.nil_append _), hlast ▸ hterminal, fun p hp => ?_⟩
    have hphase : p.phase ∈ RunProgressPhase.validating :: attemptPhases request validate engine := by
      rw [← hbefore]
      exact List.mem_map_of_mem hp
    rcases List.mem_cons.mp hphase with h | h
    · rw [h]
      unfold RunProgressPhase.Terminal
      simp
    · exact attemptPhases_live validate engine _ h
  · rw [hwith]
    exact outcome_not_invalid staging validate engine
  · rw [hwith]
    refine parentReceive_ok hrepr (k := 0) hgrew.counted.valid ?_ (by rw [Nat.zero_add]; exact hbound)
    rw [hnumbered, List.range_eq_range']
  · rw [hwith, withoutProgress_outcome hrepr]

include hrepr in
/-- A run with more messages than there is room for raises a `ValidationError`, and has
sent no terminal message. -/
theorem withProgress_full
    (hover : maxDurableProgressMessages < neededMessages request validate engine) :
    (withProgress repr request staging validate engine).1 = .error .value ∧
      ∀ p ∈ (withProgress repr request staging validate engine).2.sent, ¬ p.phase.Terminal := by
  obtain ⟨t, phases, hends, hgrew, hlive⟩ := handler_full hrepr request staging validate engine hover
  have hwith : withProgress repr request staging validate engine = (.error .value, t) := hends
  rw [hwith]
  refine ⟨rfl, fun p hp => hlive p.phase ?_⟩
  obtain ⟨messages, hmessages, hphases⟩ := hgrew.sent
  rw [if_pos rfl] at hphases
  rw [← hphases]
  refine List.mem_map_of_mem ?_
  rwa [show t.sent = messages from hmessages.trans (List.nil_append _)] at hp

include hrepr in
theorem not_harmless_of_full
    (hover : maxDurableProgressMessages < neededMessages request validate engine) :
    ¬ ProgressHarmless repr request staging validate engine := by
  intro hharmless
  obtain ⟨before, last, hsent, hterminal, -⟩ := hharmless.reported.ended
  refine (withProgress_full hrepr request staging validate engine hover).2 last ?_ hterminal
  rw [hsent]
  exact List.mem_append_right _ (List.mem_singleton_self last)

/-- The engine keeps to the limits of the request: so many sentences, and in every
iteration so many candidates. -/
structure WithinLimits : Prop where
  sentences : ∀ n ∈ request.stopping.maxSentences, engine.acceptances.length ≤ n
  iterations : ∀ n ∈ request.stopping.maxIterations,
    engine.acceptances.length ≤ n * request.candidatesPerIteration

/-- Of `n` acceptances the first and every one at a multiple of the stride are due. -/
theorem publishedAfter_le (stride n : Nat) :
    publishedAfter stride 0 n ≤ n / stride + 1 ∧ (n = 0 → publishedAfter stride 0 n = 0) := by
  induction n with
  | zero => exact ⟨by simp, fun _ => rfl⟩
  | succ n ih =>
    have hlast : publishedAfter stride 0 (n + 1) = publishedAfter stride 0 n +
        if n + 1 = 1 ∨ (n + 1) % stride = 0 then 1 else 0 := by
      unfold publishedAfter
      rw [List.range'_1_concat, List.countP_append, Nat.zero_add, Nat.add_comm 1 n]
      simp [List.countP_cons]
    refine ⟨?_, nofun⟩
    rw [hlast, Nat.succ_div]
    by_cases hzero : n = 0
    · have hone : (if n + 1 = 1 ∨ (n + 1) % stride = 0 then 1 else 0) ≤ 1 := by split <;> omega
      rw [ih.2 hzero, Nat.zero_add]
      exact Nat.le_trans hone (Nat.le_add_left 1 _)
    · by_cases hdue : stride ∣ n + 1
      · rw [if_pos hdue, if_pos (.inr (Nat.mod_eq_zero_of_dvd hdue))]
        omega
      · rw [if_neg hdue, if_neg]
        · omega
        · rintro (h | h)
          · omega
          · exact hdue (Nat.dvd_of_mod_eq_zero h)

theorem ceiling_of_limits
    (hcapped : request.stopping.maxSentences.isSome = true ∨
      request.stopping.maxIterations.isSome = true)
    (hlimits : WithinLimits request engine) : engine.acceptances.length ≤ request.candidateCeiling := by
  unfold RepositoryGenerationRequest.candidateCeiling RepositoryGenerationRequest.totalIterations
  cases hsentences : request.stopping.maxSentences with
  | some n => exact hlimits.sentences n hsentences
  | none =>
    rw [hsentences] at hcapped
    obtain ⟨k, hk⟩ := Option.isSome_iff_exists.mp (hcapped.resolve_left nofun)
    rw [hk]
    exact hlimits.iterations k hk

/-- The stride leaves room for all the acceptances a capped request allows. -/
theorem room_of_limits
    (hcapped : request.stopping.maxSentences.isSome = true ∨
      request.stopping.maxIterations.isSome = true)
    (hlimits : WithinLimits request engine) :
    neededMessages request validate engine ≤ maxDurableProgressMessages := by
  have hceiling := ceiling_of_limits request engine hcapped hlimits
  have hheard : (heard engine.acceptances).length ≤ engine.acceptances.length :=
    (List.takeWhile_sublist _).length_le
  have hpublished := (publishedAfter_le request.candidateStride
    (heard engine.acceptances).length).1
  have hbudget : (heard engine.acceptances).length / request.candidateStride ≤ 120 := by
    have hpos := (candidateStride_bounds request).1
    refine Nat.div_le_of_le_mul ?_
    have hstride : request.candidateCeiling ≤ request.candidateStride * 120 := by
      unfold RepositoryGenerationRequest.candidateStride RepositoryGenerationRequest.candidateBudget
        maxDurableProgressMessages
      omega
    omega
  have hlimit : maxDurableProgressMessages = 128 := rfl
  unfold neededMessages
  cases validate with
  | error e =>
    show 1 + 0 + 1 ≤ _
    omega
  | ok u =>
    cases houtcome : attemptOutcome (.ok u) engine with
    | ok result =>
      rw [attemptPhases_ok houtcome]
      simp only [List.length_append, List.length_cons, List.length_nil, List.length_replicate]
      unfold publishedAcceptances
      omega
    | error e =>
      rw [attemptPhases_error houtcome]
      simp only [List.length_append, List.length_cons, List.length_nil, List.length_replicate]
      unfold publishedAcceptances
      omega

include hrepr in
/-- Progress is harmless exactly when the messages of the run are at most 128, and they
are whenever the request caps sentences or iterations. -/
theorem generation_progress_harmless :
    (ProgressHarmless repr request staging validate engine ↔
      neededMessages request validate engine ≤ maxDurableProgressMessages) ∧
    ((request.stopping.maxSentences.isSome = true ∨
        request.stopping.maxIterations.isSome = true) → WithinLimits request engine →
      neededMessages request validate engine ≤ maxDurableProgressMessages) := by
  refine ⟨⟨fun hharmless => ?_, harmless_of_room hrepr request staging validate engine⟩,
    room_of_limits request validate engine⟩
  by_contra hover
  exact not_harmless_of_full hrepr request staging validate engine (by omega) hharmless

end Law

/-! ### A request with a cap and one without -/

/-- The digits of some thousandths, without zeros at the end. -/
def thousandthDigits (n : Nat) : List Char :=
  let digits := [(n / 100 % 10).digitChar, (n / 10 % 10).digitChar, (n % 10).digitChar].rdropWhile
    (· == '0')
  if digits.isEmpty then ['0'] else digits

theorem thousandthDigits_spec (n : Nat) :
    (∀ c ∈ thousandthDigits n, c.isDigit = true) ∧ (thousandthDigits n).length ≤ 3 := by
  have hdigits : ∀ c ∈ [(n / 100 % 10).digitChar, (n / 10 % 10).digitChar, (n % 10).digitChar],
      c.isDigit = true := by
    intro c hc
    simp only [List.mem_cons, List.not_mem_nil, or_false] at hc
    rcases hc with rfl | rfl | rfl <;>
      · rw [Nat.isDigit_digitChar]
        exact decide_eq_true (Nat.mod_lt _ (by decide))
  have hkept := List.rdropWhile_prefix (fun c : Char => c == '0')
    [(n / 100 % 10).digitChar, (n / 10 % 10).digitChar, (n % 10).digitChar]
  unfold thousandthDigits
  dsimp only
  split
  · exact ⟨fun c hc => by rw [List.mem_singleton.mp hc]; rfl, by decide⟩
  · exact ⟨fun c hc => hdigits c (hkept.subset hc), hkept.length_le⟩

/-- The `repr` of a number of thousandths, up to one. -/
def thousandths (q : ℚ) : Json.FloatText where
  chars := (if q < 1 then '0' else '1') :: '.' :: thousandthDigits ((q * 1000).num.toNat % 1000)
  numeric := by
    intro c hc
    rcases List.mem_cons.mp hc with rfl | hc
    · left
      split <;> rfl
    · rcases List.mem_cons.mp hc with rfl | hc
      · simp
      · exact .inl ((thousandthDigits_spec _).1 c hc)
  fractional := .inl (by simp)
  leading := ⟨_, _, rfl, .inl (by split <;> rfl)⟩

theorem thousandths_short (q : ℚ) : (thousandths q).chars.length ≤ 24 := by
  have := (thousandthDigits_spec ((q * 1000).num.toNat % 1000)).2
  simp only [thousandths, List.length_cons]
  omega

/-- A request with these limits, for one candidate in each iteration. -/
def sampleRequest (maxSentences : Option Nat) (timeoutSeconds : ℚ)
    (h : ∀ n ∈ maxSentences, 1 ≤ n ∧ n ≤ 250) : RepositoryGenerationRequest where
  stopping := ⟨maxSentences, none, some timeoutSeconds, h, nofun, fun hnone => nomatch hnone.2.2⟩
  candidatesPerIteration := 1
  candidates := by decide

/-- The candidate of an iteration, which covers one unit more. -/
def sampleCandidate (i : Nat) : AcceptedCandidate where
  sourceId := "s" ++ toString i
  text := "text " ++ toString i
  phonemes := ["t", toString i]
  iteration := i + 1
  coverageGain := 1
  started := Nat.le_add_left 1 i
  gains := Nat.le_refl 1

theorem sample_coverage {n : Nat} (h : n ≤ maxGenerationIterations) :
    (0 : ℚ) ≤ n / 1000 ∧ (n / 1000 : ℚ) ≤ 1 := by
  have hn : (n : ℚ) ≤ 1000 := by
    exact_mod_cast h.trans (by decide)
  constructor
  · exact div_nonneg (Nat.cast_nonneg n) (by norm_num)
  · exact div_le_one_of_le₀ hn (by norm_num)

/-- A loop that accepts a candidate of its own in each of its iterations, out of a
thousand units to cover. The result of more than a hundred iterations is refused. -/
def sampleEngine (n : Nat) (stopReason : String) : EngineRun where
  acceptances := (List.range n).map fun i => ⟨some (sampleCandidate i), some ((i + 1 : Nat) / 1000)⟩
  finish :=
    if h : n ≤ maxGenerationIterations then
      .ok
        { accepted := (List.range n).map sampleCandidate, coverage := n / 1000, iterations := n
          stopReason, rest := [], unit := sample_coverage h, bounded := h }
    else .error (.application .engineContractViolation "generation.repository.result")

/-- Every result is staged under the digest of zeros. -/
def sampleStaging : Staging where
  dump := fun _ => [0]
  sha256 := fun _ => List.replicate 64 '0'
  stage := fun _ digest => some (stagedArtifactPrefix ++ String.ofList digest)

/-- Three sentences are allowed, and three accepted. -/
theorem generation_progress_harmless_capped :
    ProgressHarmless thousandths (sampleRequest (some 3) 5 (by simp)) sampleStaging (.ok ())
      (sampleEngine 3 "max_sentences") :=
  have h := generation_progress_harmless thousandths_short
    (sampleRequest (some 3) 5 (by simp)) sampleStaging (.ok ()) (sampleEngine 3 "max_sentences")
  h.1.mpr (h.2 (.inl rfl) ⟨fun n hn => by cases hn; exact Nat.le_refl 3, nofun⟩)

/-- Only the time is limited, and 125 sentences are accepted in as many iterations: the
run is refused as it should be without progress, and raises something else with it, after
128 messages without a terminal one. -/
theorem generation_progress_runs_out :
    (withoutProgress (sampleRequest none 5 nofun) sampleStaging (.ok ())
      (sampleEngine 125 "timeout")).1 =
        .error (.application .engineContractViolation "generation.repository.result") ∧
    (withProgress thousandths (sampleRequest none 5 nofun) sampleStaging (.ok ())
      (sampleEngine 125 "timeout")).1 = .error .value ∧
    (∀ p ∈ (withProgress thousandths (sampleRequest none 5 nofun) sampleStaging (.ok ())
      (sampleEngine 125 "timeout")).2.sent, ¬p.phase.Terminal) ∧
    ¬ ProgressHarmless thousandths (sampleRequest none 5 nofun) sampleStaging (.ok ())
      (sampleEngine 125 "timeout") := by
  have hover : maxDurableProgressMessages < neededMessages (sampleRequest none 5 nofun) (.ok ())
      (sampleEngine 125 "timeout") := by
    decide +kernel
  obtain ⟨hraised, hlive⟩ := withProgress_full thousandths_short _ sampleStaging _ _ hover
  refine ⟨?_, hraised, hlive, not_harmless_of_full thousandths_short _ _ _ _ hover⟩
  have hsound : ∀ a ∈ (sampleEngine 125 "timeout").acceptances, a.Sound := by decide +kernel
  have hengine : engineOutcome (sampleEngine 125 "timeout") =
      .error (.application .engineContractViolation "generation.repository.result") := by
    rw [engineOutcome, if_pos hsound]
    rfl
  rw [withoutProgress_outcome thousandths_short, handlerOutcome, executeOutcome, attemptOutcome,
    Except.bind, hengine]
  rfl

end CorpusKit.RepositoryGeneration
