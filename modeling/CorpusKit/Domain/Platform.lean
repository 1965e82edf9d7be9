import CorpusKit.Domain.RunSpecs

/-! # Quota classes, quota policy and audit vocabulary -/

namespace CorpusKit

inductive RunQuotaClass
  | cpu
  | expensive
  deriving DecidableEq, Repr

def RunQuotaClass.value : RunQuotaClass → String
  | .cpu => "cpu"
  | .expensive => "expensive"

inductive QuotaReservationState
  | active
  | released
  | expired
  deriving DecidableEq, Repr

inductive AuditActorKind
  | user
  | service
  deriving DecidableEq, Repr

inductive AuditAction
  | projectCreated
  | projectDeletionRequested
  | projectPurged
  | corpusCreated
  | corpusVersionCreated
  | runSubmitted
  | runCancellationRequested
  | runRetrySubmitted
  | runSucceeded
  | runFailed
  | runCancelled
  | artifactCreated
  | artifactTombstoned
  | artifactPurged
  | artifactAdopted
  | runManifestCreated
  | runReplaySubmitted
  | runReplayCompared
  | quotaPolicyChanged
  | quotaReservationExpired
  deriving DecidableEq, Repr

inductive AuditResourceType
  | project
  | corpus
  | run
  | artifact
  | quotaPolicy
  | quotaReservation
  | replay
  deriving DecidableEq, Repr

/-- Server-owned limits, with the bounds their field declarations state. -/
structure QuotaPolicyValues where
  maxConcurrentCpuJobs : Nat := 3
  maxConcurrentExpensiveJobs : Nat := 1
  maxArtifactBytes : Nat := 10 * 1024 * 1024 * 1024
  maxArtifactCount : Nat := 10000
  maxCorpusSentences : Nat := 1000000
  maxGenerationAcceptedSentences : Nat := 100
  maxGenerationIterations : Nat := 500
  maxActivityDeadline : Duration := seconds 300
  maxProviderInputTokens : Nat := 1000000
  maxProviderOutputTokens : Nat := 100000
  maxProviderCostMicrousd : Nat := 10000000
  maxRlSteps : Nat := 10000
  maxRlTokens : Nat := 10000000
  maxCheckpointBytes : Nat := 100 * 1024 * 1024
  concurrent_bounds : (1 ≤ maxConcurrentCpuJobs ∧ maxConcurrentCpuJobs ≤ 1000) ∧
    1 ≤ maxConcurrentExpensiveJobs ∧ maxConcurrentExpensiveJobs ≤ 1000 := by decide
  deadline_bounds : 0 < maxActivityDeadline ∧ maxActivityDeadline ≤ seconds 86400 := by decide
  positive : ∀ limit ∈ [maxArtifactBytes, maxArtifactCount, maxCorpusSentences,
    maxGenerationAcceptedSentences, maxGenerationIterations, maxProviderInputTokens,
    maxProviderOutputTokens, maxProviderCostMicrousd, maxRlSteps, maxRlTokens,
    maxCheckpointBytes], 1 ≤ limit := by decide
  deriving DecidableEq, Repr

/-- `RUN_QUOTA_CLASSES`. -/
def runQuotaClass : RunKind → RunQuotaClass
  | .phonemize => .cpu
  | .evaluate => .cpu
  | .distribution => .cpu
  | .trajectory => .cpu
  | .errorRates => .cpu
  | .perplexity => .expensive
  | .select => .cpu
  | .generateRepository => .cpu
  | .generateLlm => .expensive
  | .generateLocal => .expensive
  | .buildDatgIndex => .cpu
  | .generateDatg => .expensive
  | .trainPhonRl => .expensive
  | .export => .cpu

/-- How `validate_run_resource_policy` fails: the request model rejects the
specification, or a ceiling is exceeded. -/
inductive PolicyFailure
  | validation
  | value (message : String)
  deriving DecidableEq, Repr

/-- What a kind's request asks for. -/
structure Ceilings where
  accepted : Option Nat := none
  iterations : Option Nat := none
  deadline : Option Duration := none

def exceeds (wanted : Option Nat) (limit : Nat) : Bool :=
  match wanted with
  | some n => decide (limit < n)
  | none => false

def rejectWhen (exceeded : Bool) (message : String) : Except PolicyFailure Unit :=
  if exceeded then .error (.value message) else .ok ()

/-- `_microusd`: the cost in whole micro-dollars. -/
def microusd (value : Rat) : Except PolicyFailure Nat :=
  let scaled := value * 1000000
  if scaled.den = 1 then .ok scaled.num.toNat
  else .error (.value "provider cost is not finite and bounded")

def requestCeilings (kind : RunKind) (spec : RunSpec) (policy : QuotaPolicyValues) :
    Except PolicyFailure Ceilings :=
  match kind, spec.request with
  | .generateRepository, .repository request =>
    .ok ⟨request.stopping.maxSentences, request.stopping.maxIterations, some request.activityTimeout⟩
  | .generateLlm, .hosted request => do
    rejectWhen (policy.maxProviderInputTokens < request.budget.maxInputTokens)
      "provider input token quota exceeded"
    rejectWhen (policy.maxProviderOutputTokens < request.budget.maxOutputTokens)
      "provider output token quota exceeded"
    let cost ← microusd request.budget.maxCostUsd
    rejectWhen (policy.maxProviderCostMicrousd < cost) "provider cost quota exceeded"
    .ok ⟨request.stopping.maxSentences, request.stopping.maxIterations, some request.activityTimeout⟩
  | .generateLocal, .local request => do
    rejectWhen (policy.maxProviderOutputTokens < request.maxNewTokens * request.candidatesPerIteration)
      "local generation token quota exceeded"
    .ok ⟨request.stopping.maxSentences, request.stopping.maxIterations, some request.activityTimeout⟩
  | .perplexity, .analysis request => do
    rejectWhen (policy.maxProviderInputTokens < request.texts * request.maxLength)
      "analysis token quota exceeded"
    .ok ⟨none, none, some request.activityTimeout⟩
  | .buildDatgIndex, .datgIndex request => .ok ⟨none, none, some request.activityTimeout⟩
  | .generateDatg, .datgGeneration request => do
    rejectWhen (policy.maxProviderOutputTokens < request.candidates * request.maxNewTokens)
      "DATG token quota exceeded"
    .ok ⟨some request.candidates, none, some request.activityTimeout⟩
  | .trainPhonRl, .training request => do
    rejectWhen (policy.maxRlSteps < request.parameters.numSteps) "RL step quota exceeded"
    rejectWhen (policy.maxRlTokens < request.parameters.numSteps * request.parameters.batchSize *
      request.parameters.maxNewTokens) "RL token quota exceeded"
    .ok ⟨none, none, some request.parameters.activityTimeout⟩
  | .generateRepository, _ => .error .validation
  | .generateLlm, _ => .error .validation
  | .generateLocal, _ => .error .validation
  | .perplexity, _ => .error .validation
  | .buildDatgIndex, _ => .error .validation
  | .generateDatg, _ => .error .validation
  | .trainPhonRl, _ => .error .validation
  | _, _ => .ok {}

/-- Validate kind-specific resource ceilings against a server-owned policy. -/
def validateRunResourcePolicy (kind : RunKind) (spec : RunSpec) (policy : QuotaPolicyValues) :
    Except PolicyFailure (Option Duration) := do
  let wanted ← requestCeilings kind spec policy
  rejectWhen (exceeds wanted.accepted policy.maxGenerationAcceptedSentences)
    "generation accepted-sentence quota exceeded"
  rejectWhen (exceeds wanted.iterations policy.maxGenerationIterations)
    "generation iteration quota exceeded"
  rejectWhen (exceeds wanted.deadline policy.maxActivityDeadline)
    "activity deadline quota exceeded"
  .ok wanted.deadline

/-- The policy admits the specification. -/
def Admits (policy : QuotaPolicyValues) (kind : RunKind) (spec : RunSpec) : Prop :=
  ∃ deadline, validateRunResourcePolicy kind spec policy = .ok deadline

/-! ## Audit vocabulary -/

/-- `_SAFE_CORRELATION`: a letter or digit, then at most 127 safe characters. -/
def isSafeCorrelation (value : String) : Bool :=
  match value.toList with
  | [] => false
  | c :: rest => c.isAlphanum && decide (rest.length ≤ 127) &&
      rest.all fun c => c.isAlphanum || "._:-".toList.contains c

/-- `_AUDIT_METADATA_KEYS`. -/
def auditMetadataKeys : AuditAction → List String
  | .projectCreated => []
  | .projectDeletionRequested => ["artifact_count", "corpus_sentences", "retention_until"]
  | .projectPurged => ["artifact_count", "corpus_sentences"]
  | .corpusCreated => ["content_sha256", "language", "sentence_count"]
  | .corpusVersionCreated =>
    ["content_sha256", "language", "parent_version_id", "sentence_count", "version_number"]
  | .runSubmitted => ["attempt", "kind", "quota_class"]
  | .runCancellationRequested => ["prior_state"]
  | .runRetrySubmitted => ["attempt", "kind", "quota_class", "source_run_id"]
  | .runSucceeded => ["kind"]
  | .runFailed => ["failure_code", "kind"]
  | .runCancelled => ["kind"]
  | .artifactCreated => ["kind", "sha256", "size_bytes"]
  | .artifactTombstoned => ["kind", "size_bytes"]
  | .artifactPurged => ["kind", "size_bytes"]
  | .artifactAdopted => ["kind", "schema_id", "sha256", "size_bytes"]
  | .runManifestCreated => ["sha256", "size_bytes"]
  | .runReplaySubmitted => ["classification", "kind", "source_manifest_id", "source_run_id"]
  | .runReplayCompared => ["classification", "outputs_match", "verdict"]
  | .quotaPolicyChanged => ["changed_fields"]
  | .quotaReservationExpired => ["kind", "quota_class"]

end CorpusKit
