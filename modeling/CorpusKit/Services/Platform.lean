import CorpusKit.Persistence.Session

/-! # Quota accounting and audit evidence

`AuditWriter` and `QuotaManager`, as they run inside the caller's transaction.
A read of the policy row takes no lock, so a transaction that charges quota is
handed the policy it read (`policy`), which may be older than the committed one
by the time the usage row is locked. -/

namespace CorpusKit

open Transaction

/-! ## Audit chain -/

namespace AuditWriter

/-- Append exactly one allowlisted event while holding the organization chain head. -/
def append (organizationId : Uuid) (actor : AuditIdentity) (action : AuditAction)
    (resourceType : AuditResourceType) (resourceId : Uuid) (requestId : Option String)
    (metadata : List (String × AuditValue)) (occurredAt : Instant) : DbTx Unit := do
  require (∀ entry ∈ metadata, entry.1 ∈ auditMetadataKeys action)
    (.value "audit metadata contains fields outside the action allowlist")
  require (∀ value ∈ requestId, isSafeCorrelation value) (.value "correlation ID is not safe")
  let db ← get
  let lastSequence ← found (db.auditHeads.lookup organizationId)
    (.runtime "audit chain head is unavailable")
  let sequence := lastSequence + 1
  require (db.auditEvents.lookup (organizationId, sequence) = none)
    (.integrity "uq_audit_events_organization_sequence")
  set { db with
    auditEvents := db.auditEvents.insert (organizationId, sequence)
      ⟨actor, action, resourceType, resourceId, requestId, occurredAt, metadata⟩
    auditHeads := db.auditHeads.insert organizationId sequence }

end AuditWriter

/-! ## Quota usage -/

/-- `_ensure_platform_rows` under the platform identity. -/
def ensurePlatformRows (organizationId : Uuid) : DbTx Unit := do
  let db ← get
  set { db with
    quotaPolicies := match db.quotaPolicies.lookup organizationId with
      | some _ => db.quotaPolicies
      | none => db.quotaPolicies.insert organizationId {}
    quotaUsages := match db.quotaUsages.lookup organizationId with
      | some _ => db.quotaUsages
      | none => db.quotaUsages.insert organizationId {}
    auditHeads := match db.auditHeads.lookup organizationId with
      | some _ => db.auditHeads
      | none => db.auditHeads.insert organizationId 0 }

namespace QuotaManager

def defaultRunDeadline : Duration := seconds 300

def jobReservationGrace : Duration := seconds (5 * 60)

/-- The policy read before, and the usage row locked now. -/
def locked (policy : Option QuotaPolicyValues) (organizationId : Uuid) :
    DbTx (QuotaPolicyValues × QuotaUsage) := do
  let db ← get
  let policy ← found policy (.runtime "quota state is unavailable")
  let usage ← found (db.quotaUsages.lookup organizationId) (.runtime "quota state is unavailable")
  pure (policy, usage)

def setUsage (organizationId : Uuid) (usage : QuotaUsage) : DbTx Unit :=
  modify fun db => { db with quotaUsages := db.quotaUsages.insert organizationId usage }

/-- The reservation of a run; `uq_quota_reservations_organization_run` allows one. -/
def reservationOf (organizationId runId : Uuid) : DbTx (Option (Uuid × QuotaReservation)) := do
  let db ← get
  pure (db.quotaReservations.find fun _ reservation =>
    reservation.organizationId == organizationId && reservation.runId == runId)

def setReservation (id : Uuid) (reservation : QuotaReservation) : DbTx Unit :=
  modify fun db => { db with quotaReservations := db.quotaReservations.insert id reservation }

def reservationExpiry (deadline : Option Duration) (now : Instant) : Instant :=
  now + deadline.getD defaultRunDeadline + jobReservationGrace

def chargeJob (policy : QuotaPolicyValues) (usage : QuotaUsage) : RunQuotaClass → DbTx QuotaUsage
  | .cpu => do
    require (usage.activeCpuJobs < policy.maxConcurrentCpuJobs)
      (.quotaExceeded "run.submit" (some 30))
    pure { usage with activeCpuJobs := usage.activeCpuJobs + 1 }
  | .expensive => do
    require (usage.activeExpensiveJobs < policy.maxConcurrentExpensiveJobs)
      (.quotaExceeded "run.submit" (some 30))
    pure { usage with activeExpensiveJobs := usage.activeExpensiveJobs + 1 }

def reserveRun (policy : Option QuotaPolicyValues) (organizationId runId : Uuid) (run : Run)
    (now : Instant) : DbTx Bool := do
  match ← reservationOf organizationId runId with
  | some (_, existing) =>
    require (existing.quotaClass = runQuotaClass run.kind ∧ existing.state = .active)
      (.runtime "run quota reservation is inconsistent")
    pure false
  | none =>
    let (policy, usage) ← locked policy organizationId
    match validateRunResourcePolicy run.kind run.spec policy with
    | .error .validation => throw (.invalidRequest "run.submit")
    | .error (.value _) => throw (.quotaExceeded "run.submit" none)
    | .ok deadline =>
      let usage ← chargeJob policy usage (runQuotaClass run.kind)
      let id ← uuid4
      setReservation id
        { organizationId, runId, quotaClass := runQuotaClass run.kind, state := .active
          expiresAt := reservationExpiry deadline now, releasedAt := none }
      setUsage organizationId usage
      pure true

def renewRun (organizationId runId : Uuid) (run : Run) (now : Instant) : DbTx Bool := do
  match ← reservationOf organizationId runId with
  | none => pure false
  | some (id, reservation) =>
    if reservation.state = .active then
      let db ← get
      let policy ← found (db.quotaPolicies.lookup organizationId)
        (.runtime "quota policy is unavailable")
      match validateRunResourcePolicy run.kind run.spec policy with
      | .error _ => throw (.runtime "persisted run no longer satisfies quota policy")
      | .ok deadline =>
        setReservation id { reservation with expiresAt := reservationExpiry deadline now }
        pure true
    else pure false

def releaseJob (usage : QuotaUsage) : RunQuotaClass → DbTx QuotaUsage
  | .cpu => do
    require (0 < usage.activeCpuJobs) (.runtime "CPU quota usage is inconsistent")
    pure { usage with activeCpuJobs := usage.activeCpuJobs - 1 }
  | .expensive => do
    require (0 < usage.activeExpensiveJobs) (.runtime "expensive quota usage is inconsistent")
    pure { usage with activeExpensiveJobs := usage.activeExpensiveJobs - 1 }

def releaseRun (organizationId runId : Uuid) (state : QuotaReservationState) (now : Instant) :
    DbTx Bool := do
  match ← reservationOf organizationId runId with
  | none => pure false
  | some (id, reservation) =>
    if reservation.state = .active then
      let db ← get
      let (_, usage) ← locked (db.quotaPolicies.lookup organizationId) organizationId
      let usage ← releaseJob usage reservation.quotaClass
      setUsage organizationId usage
      setReservation id { reservation with state, releasedAt := some now }
      pure true
    else pure false

def consumeArtifact (policy : Option QuotaPolicyValues) (organizationId : Uuid)
    (kind : ArtifactKind) (sizeBytes : Nat) : DbTx Unit := do
  require (0 < sizeBytes) (.value "artifact usage must be positive")
  let (policy, usage) ← locked policy organizationId
  require (¬ ((kind = .checkpoint ∨ kind = .modelAdapter) ∧ policy.maxCheckpointBytes < sizeBytes))
    (.quotaExceeded "artifact.create" none)
  require (usage.artifactCount + 1 ≤ policy.maxArtifactCount)
    (.quotaExceeded "artifact.create" none)
  require (usage.artifactBytes + sizeBytes ≤ policy.maxArtifactBytes)
    (.quotaExceeded "artifact.create" none)
  setUsage organizationId { usage with
    artifactCount := usage.artifactCount + 1, artifactBytes := usage.artifactBytes + sizeBytes }

def releaseArtifact (organizationId : Uuid) (sizeBytes : Nat) : DbTx Unit := do
  let db ← get
  let (_, usage) ← locked (db.quotaPolicies.lookup organizationId) organizationId
  require (¬ (usage.artifactCount = 0 ∨ usage.artifactBytes < sizeBytes))
    (.runtime "artifact quota usage is inconsistent")
  setUsage organizationId { usage with
    artifactCount := usage.artifactCount - 1, artifactBytes := usage.artifactBytes - sizeBytes }

def consumeCorpusSentences (policy : Option QuotaPolicyValues) (organizationId : Uuid)
    (sentenceCount : Nat) (operation : String) : DbTx Unit := do
  require (0 < sentenceCount) (.value "corpus sentence usage must be positive")
  let (policy, usage) ← locked policy organizationId
  require (usage.corpusSentences + sentenceCount ≤ policy.maxCorpusSentences)
    (.quotaExceeded operation none)
  setUsage organizationId { usage with corpusSentences := usage.corpusSentences + sentenceCount }

/-- Release an exactly accounted project corpus allocation during final erasure. -/
def releaseCorpusSentences (organizationId : Uuid) (sentenceCount : Nat) : DbTx Unit := do
  require (0 < sentenceCount) (.value "corpus sentence release must be positive")
  let db ← get
  let (_, usage) ← locked (db.quotaPolicies.lookup organizationId) organizationId
  require (sentenceCount ≤ usage.corpusSentences)
    (.runtime "corpus sentence quota usage is inconsistent")
  setUsage organizationId { usage with corpusSentences := usage.corpusSentences - sentenceCount }

end QuotaManager

/-! ## Reservation expiry -/

/-- The candidates of one `expire_stale` pass, oldest first. -/
def Db.staleReservations (db : Db) (cutoff : Instant) (limit : Nat) : List (Uuid × Uuid × Uuid) :=
  let due := db.quotaReservations.select fun _ reservation =>
    reservation.state == .active && decide (reservation.expiresAt ≤ cutoff)
  let ordered := due.insertionSort fun a b =>
    a.2.expiresAt < b.2.expiresAt ∨ (a.2.expiresAt = b.2.expiresAt ∧ a.1 ≤ b.1)
  (ordered.take limit).map fun e => (e.1, e.2.organizationId, e.2.runId)

/-- The state an expired reservation leaves its run in, with the failure code. -/
def expiryTarget (state : RunState) : RunState × Option String :=
  if state = .cancelling then (.cancelled, none) else (.failed, some "quota_reservation_expired")

/-- The run of an expired reservation fails, or ends the cancellation under way. -/
def QuotaManager.endExpiredRun (organizationId runId : Uuid) (run : Run) : DbTx Unit :=
  if isTerminal run.state then pure ()
  else do
    let (target, failureCode) := expiryTarget run.state
    ensureTransition run.state target
    setRun runId { run with
      state := target, eventSequence := run.eventSequence + 1, resultSummary := none, failureCode }
    addRunEvent organizationId runId (run.eventSequence + 1)
      (if target = .cancelled then "run.cancelled" else "run.failed")
      { state := some target, failureCode }

/-- The terminal audit event of an expired run, when expiry was what ended it. -/
def QuotaManager.auditExpiredRun (organizationId runId : Uuid) (run : Run) (now : Instant) :
    DbTx Unit :=
  if isTerminal run.state then pure ()
  else
    let (target, failureCode) := expiryTarget run.state
    AuditWriter.append organizationId (.service .maintenance)
      (if target = .cancelled then .runCancelled else .runFailed) .run runId none
      (("kind", .text run.kind.value) ::
        (failureCode.map fun code => ("failure_code", AuditValue.text code)).toList) now

/-- One candidate of `expire_stale`, in its own transaction. -/
def QuotaManager.expireReservation (cutoff : Instant) (reservationId organizationId runId : Uuid)
    (now : Instant) : DbTx Bool := do
  let db ← get
  let run ← found (db.run? organizationId runId) (.runtime "quota reservation run is unavailable")
  let locked := (db.quotaReservations.lookup reservationId).filter fun reservation =>
    reservation.organizationId == organizationId && reservation.state == .active &&
      decide (reservation.expiresAt ≤ cutoff)
  match locked with
  | none => pure false
  | some reservation =>
    endExpiredRun organizationId runId run
    let released ← releaseRun organizationId runId .expired now
    if released then do
      AuditWriter.append organizationId (.service .maintenance) .quotaReservationExpired
        .quotaReservation reservationId none
        [("kind", .text run.kind.value), ("quota_class", .text reservation.quotaClass.value)] now
      auditExpiredRun organizationId runId run now
      pure true
    else pure false

/-! ## Policy replacement -/

/-- Only the columns that differ from the row as it was loaded are written, so a
column changed by somebody else in between survives. -/
def QuotaPolicyValues.write (committed loaded new : QuotaPolicyValues) : QuotaPolicyValues where
  maxConcurrentCpuJobs := if new.maxConcurrentCpuJobs = loaded.maxConcurrentCpuJobs
    then committed.maxConcurrentCpuJobs else new.maxConcurrentCpuJobs
  maxConcurrentExpensiveJobs := if new.maxConcurrentExpensiveJobs = loaded.maxConcurrentExpensiveJobs
    then committed.maxConcurrentExpensiveJobs else new.maxConcurrentExpensiveJobs
  maxArtifactBytes := if new.maxArtifactBytes = loaded.maxArtifactBytes
    then committed.maxArtifactBytes else new.maxArtifactBytes
  maxArtifactCount := if new.maxArtifactCount = loaded.maxArtifactCount
    then committed.maxArtifactCount else new.maxArtifactCount
  maxCorpusSentences := if new.maxCorpusSentences = loaded.maxCorpusSentences
    then committed.maxCorpusSentences else new.maxCorpusSentences
  maxGenerationAcceptedSentences :=
    if new.maxGenerationAcceptedSentences = loaded.maxGenerationAcceptedSentences
    then committed.maxGenerationAcceptedSentences else new.maxGenerationAcceptedSentences
  maxGenerationIterations := if new.maxGenerationIterations = loaded.maxGenerationIterations
    then committed.maxGenerationIterations else new.maxGenerationIterations
  maxActivityDeadline := if new.maxActivityDeadline = loaded.maxActivityDeadline
    then committed.maxActivityDeadline else new.maxActivityDeadline
  maxProviderInputTokens := if new.maxProviderInputTokens = loaded.maxProviderInputTokens
    then committed.maxProviderInputTokens else new.maxProviderInputTokens
  maxProviderOutputTokens := if new.maxProviderOutputTokens = loaded.maxProviderOutputTokens
    then committed.maxProviderOutputTokens else new.maxProviderOutputTokens
  maxProviderCostMicrousd := if new.maxProviderCostMicrousd = loaded.maxProviderCostMicrousd
    then committed.maxProviderCostMicrousd else new.maxProviderCostMicrousd
  maxRlSteps := if new.maxRlSteps = loaded.maxRlSteps then committed.maxRlSteps else new.maxRlSteps
  maxRlTokens := if new.maxRlTokens = loaded.maxRlTokens
    then committed.maxRlTokens else new.maxRlTokens
  maxCheckpointBytes := if new.maxCheckpointBytes = loaded.maxCheckpointBytes
    then committed.maxCheckpointBytes else new.maxCheckpointBytes
  concurrent_bounds := by
    have hc := committed.concurrent_bounds
    have hn := new.concurrent_bounds
    constructor <;> split <;> simp_all
  deadline_bounds := by
    have hc := committed.deadline_bounds
    have hn := new.deadline_bounds
    split <;> simp_all
  positive := by
    have hc := committed.positive
    have hn := new.positive
    simp only [List.mem_cons, List.not_mem_nil, or_false, forall_eq_or_imp, forall_eq] at hc hn ⊢
    obtain ⟨c1, c2, c3, c4, c5, c6, c7, c8, c9, c10, c11⟩ := hc
    obtain ⟨n1, n2, n3, n4, n5, n6, n7, n8, n9, n10, n11⟩ := hn
    refine ⟨?_, ?_, ?_, ?_, ?_, ?_, ?_, ?_, ?_, ?_, ?_⟩ <;> split <;> assumption

/-- The limits of a policy with their field names, in declaration order. -/
def QuotaPolicyValues.fields (policy : QuotaPolicyValues) : List (String × Nat) :=
  [("max_concurrent_cpu_jobs", policy.maxConcurrentCpuJobs),
   ("max_concurrent_expensive_jobs", policy.maxConcurrentExpensiveJobs),
   ("max_artifact_bytes", policy.maxArtifactBytes),
   ("max_artifact_count", policy.maxArtifactCount),
   ("max_corpus_sentences", policy.maxCorpusSentences),
   ("max_generation_accepted_sentences", policy.maxGenerationAcceptedSentences),
   ("max_generation_iterations", policy.maxGenerationIterations),
   ("max_activity_deadline_seconds", policy.maxActivityDeadline),
   ("max_provider_input_tokens", policy.maxProviderInputTokens),
   ("max_provider_output_tokens", policy.maxProviderOutputTokens),
   ("max_provider_cost_microusd", policy.maxProviderCostMicrousd),
   ("max_rl_steps", policy.maxRlSteps),
   ("max_rl_tokens", policy.maxRlTokens),
   ("max_checkpoint_bytes", policy.maxCheckpointBytes)]

def changedFields (before after : QuotaPolicyValues) : List String :=
  (((before.fields.zip after.fields).filter fun e => e.1.2 != e.2.2).map fun e => e.1.1).insertionSort
    (· ≤ ·)

/-- Every run with an active reservation of the organization passes the policy. -/
def Db.ActiveRunsAdmitted (db : Db) (organizationId : Uuid) (policy : QuotaPolicyValues) : Prop :=
  ∀ e ∈ db.quotaReservations.rows, e.2.organizationId = organizationId → e.2.state = .active →
    ∀ run ∈ db.run? organizationId e.2.runId,
      (validateRunResourcePolicy run.kind run.spec policy).isOk = true

instance (db : Db) (organizationId : Uuid) (policy : QuotaPolicyValues) :
    Decidable (db.ActiveRunsAdmitted organizationId policy) :=
  inferInstanceAs (Decidable (∀ e ∈ db.quotaReservations.rows, _))

/-- `PlatformService.replace_policy` after its read of the current policy. -/
def replacePolicy (current : Option QuotaPolicyValues) (organizationId : Uuid)
    (policy : QuotaPolicyValues) (requestId : Option String) (now : Instant) : DbTx Unit := do
  let (loaded, usage) ← QuotaManager.locked current organizationId
  require (usage.activeCpuJobs ≤ policy.maxConcurrentCpuJobs ∧
      usage.activeExpensiveJobs ≤ policy.maxConcurrentExpensiveJobs ∧
      usage.artifactBytes ≤ policy.maxArtifactBytes ∧
      usage.artifactCount ≤ policy.maxArtifactCount ∧
      usage.corpusSentences ≤ policy.maxCorpusSentences)
    (.quotaExceeded "quota.policy.update" none)
  let db ← get
  require (db.ActiveRunsAdmitted organizationId policy) (.quotaExceeded "quota.policy.update" none)
  let committed ← found (db.quotaPolicies.lookup organizationId) (.runtime "quota state is unavailable")
  set { db with
    quotaPolicies := db.quotaPolicies.insert organizationId (committed.write loaded policy) }
  AuditWriter.append organizationId (.service .platform) .quotaPolicyChanged .quotaPolicy
    organizationId requestId [("changed_fields", .texts (changedFields loaded policy))] now

end CorpusKit
