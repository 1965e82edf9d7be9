import CorpusKit.Library.Effects
import CorpusKit.Library.Json
import CorpusKit.Workflows.Progress
import Mathlib.Algebra.GroupWithZero.Nat

/-! # Repository generation with progress

The durable handler of a repository generation, from the callbacks of the engine
to the messages in the pipe. Four scopes keep variables of their own: the
coordinator, the handler, the child process and its parent. A message that one of
them refuses is an exception in the callback, and what was counted or sent before
it stays. -/

namespace CorpusKit.RepositoryGeneration

open Effects

def maxProcessProgressBytes : Nat := 512

def maxGenerationIterations : Nat := 100

def maxCandidatesPerIteration : Nat := 32

def maxRepositoryResultArtifactBytes : Nat := 4 * 1024 * 1024

/-! ## Exceptions -/

inductive ApplicationErrorCode
  | invalidRequest
  | languageNotSupported
  | inventoryNotFound
  | inventoryDataUnavailable
  | dependencyUnavailable
  | engineUnavailable
  | engineContractViolation
  | resourceNotFound
  | resourceConflict
  | invalidStateTransition
  | quotaExceeded
  | rateLimited
  deriving DecidableEq, Repr

/-- What is raised, by the classes the handlers tell apart. -/
inductive Raised
  | application (code : ApplicationErrorCode) (operation : String)
  | runExecution (code : String) (retryable : Bool)
  /-- `ValueError`, of which a `ValidationError` is one. -/
  | value
  /-- `ImportError`. -/
  | missing
  /-- `AttributeError`, `TypeError`, `KeyError` or `IndexError`. -/
  | contract
  /-- Anything else. -/
  | other
  deriving DecidableEq, Repr

/-! ## Progress messages -/

inductive GenerationPhase
  | validating
  | preparingRepository
  | generating
  | candidateAccepted
  | finished
  | failed
  deriving DecidableEq, Repr

def GenerationPhase.value : GenerationPhase → String
  | .validating => "validating"
  | .preparingRepository => "preparing_repository"
  | .generating => "generating"
  | .candidateAccepted => "candidate_accepted"
  | .finished => "finished"
  | .failed => "failed"

/-- The bytes of a text in UTF-8. -/
def byteLength (text : List Char) : Nat := (text.map Char.utf8Size).sum

def natOrNull : Option Nat → Json.Value
  | none => .null
  | some n => .int n

/-- A float is written as its `repr`. -/
def coverageOrNull (repr : ℚ → Json.FloatText) : Option Number → Json.Value
  | some (some q) => .float (repr q)
  | _ => .null

/-- `_encode_progress`; the fields stand in the order of their keys. -/
def encodeProgress (repr : ℚ → Json.FloatText) (p : DurableRunProgress) : List Char :=
  Json.encode (.obj
    [("progress".toList, .obj
      [("accepted_count".toList, natOrNull p.acceptedCount),
        ("completed".toList, natOrNull p.completed),
        ("coverage".toList, coverageOrNull repr p.coverage),
        ("phase".toList, .str p.phase.value.toList),
        ("schema_version".toList, .int 1),
        ("sequence".toList, .int p.sequence),
        ("total".toList, natOrNull p.total)]),
      ("status".toList, .str "progress".toList)])

/-! ## The variables of the four scopes -/

structure Reporting where
  /-- `sequence` and `accepted_count` of the coordinator. -/
  events : Nat := 0
  accepted : Nat := 0
  /-- `sequence` and `last_phase` of the handler. -/
  sequence : Nat := 0
  lastPhase : Option RunProgressPhase := none
  /-- `last_progress_sequence` and `progress_count` of the child. -/
  lastProgressSequence : Int := -1
  progressCount : Nat := 0
  /-- What the child has sent, in order. -/
  sent : List DurableRunProgress := []

abbrev Call (α : Type) := Act Reporting Raised α

/-- A call without effects. -/
def settled {α : Type} : Except Raised α → Call α
  | .ok a => pure a
  | .error e => throw e

def invalidProgress : Raised := .runExecution "invalid_progress" false

/-- `emit` of the child. The message is a validated record already. -/
def childEmit (repr : ℚ → Json.FloatText) (progress : DurableRunProgress) : Call Unit := do
  modify fun s => { s with progressCount := s.progressCount + 1 }
  let s ← get
  require (s.progressCount ≤ maxDurableProgressMessages ∧
    s.lastProgressSequence < (progress.sequence : Int)) invalidProgress
  modify fun s => { s with lastProgressSequence := progress.sequence }
  require (byteLength (encodeProgress repr progress) ≤ maxProcessProgressBytes) invalidProgress
  modify fun s => { s with sent := s.sent ++ [progress] }

/-- What the parent makes of a message: the latest sequence number and the count. -/
def parentReceive (repr : ℚ → Json.FloatText) (last : Int) (count : Nat) :
    List DurableRunProgress → Except Raised (Int × Nat)
  | [] => .ok (last, count)
  | progress :: rest =>
    if maxProcessProgressBytes < byteLength (encodeProgress repr progress) then .error invalidProgress
    else if ¬ progress.Valid then .error invalidProgress
    else if maxDurableProgressMessages < count + 1 ∨ (progress.sequence : Int) ≤ last then
      .error invalidProgress
    else parentReceive repr progress.sequence (count + 1) rest

/-! ## The request -/

structure GenerationStoppingCriteria where
  maxSentences : Option Nat
  maxIterations : Option Nat
  timeoutSeconds : Option ℚ
  sentences : ∀ n ∈ maxSentences, 1 ≤ n ∧ n ≤ 250
  iterations : ∀ n ∈ maxIterations, 1 ≤ n ∧ n ≤ maxGenerationIterations
  capped : ¬ (maxSentences = none ∧ maxIterations = none ∧ timeoutSeconds = none)

structure RepositoryGenerationRequest where
  stopping : GenerationStoppingCriteria
  candidatesPerIteration : Nat
  candidates : 1 ≤ candidatesPerIteration ∧ candidatesPerIteration ≤ maxCandidatesPerIteration

namespace RepositoryGenerationRequest

variable (request : RepositoryGenerationRequest)

def totalIterations : Nat := request.stopping.maxIterations.getD maxGenerationIterations

def candidateCeiling : Nat :=
  request.stopping.maxSentences.getD (request.totalIterations * request.candidatesPerIteration)

def candidateBudget : Nat := maxDurableProgressMessages - 8

def candidateStride : Nat :=
  max 1 ((request.candidateCeiling + candidateBudget - 1) / candidateBudget)

end RepositoryGenerationRequest

/-! ## The engine -/

structure AcceptedCandidate where
  sourceId : String
  text : String
  phonemes : List String
  iteration : Nat
  coverageGain : Nat
  started : 1 ≤ iteration
  gains : 1 ≤ coverageGain

structure RepositoryGenerationResult where
  accepted : List AcceptedCandidate
  coverage : ℚ
  iterations : Nat
  stopReason : String
  /-- The fields that are only written out. -/
  rest : List (String × Json.Value)
  unit : 0 ≤ coverage ∧ coverage ≤ 1
  bounded : iterations ≤ maxGenerationIterations

/-- What the loop tells the progress callback of one acceptance: the candidate, or none
where its model refuses the numbers or the row, and the coverage. -/
structure Acceptance where
  candidate : Option AcceptedCandidate
  coverage : Number

/-- A run of the engine's loop: its acceptances in order, and how it ends. -/
structure EngineRun where
  acceptances : List Acceptance
  finish : Except Raised RepositoryGenerationResult

/-! ## The coordinator -/

structure GenerationProgress where
  sequence : Nat
  phase : GenerationPhase
  iteration : Nat
  coverage : Number
  acceptedCount : Nat
  acceptedSourceId : Option String
  coverageGain : Option Nat
  stopReason : Option String

structure GenerationProgress.Valid (event : GenerationProgress) : Prop where
  coverage : event.coverage.InUnit
  gain : ∀ n ∈ event.coverageGain, 1 ≤ n

instance (event : GenerationProgress) : Decidable event.Valid :=
  decidable_of_iff (event.coverage.InUnit ∧ ∀ n ∈ event.coverageGain, 1 ≤ n)
    ⟨fun ⟨h, h'⟩ => ⟨h, h'⟩, fun ⟨h, h'⟩ => ⟨h, h'⟩⟩

namespace GenerationCoordinator

variable (sink : GenerationProgress → Call Unit)

/-- `publish` of the coordinator. -/
def publish (phase : GenerationPhase) (iteration : Nat) (coverage : Number) (acceptedCount : Nat)
    (accepted : Option AcceptedCandidate) (result : Option RepositoryGenerationResult) :
    Call Unit := do
  let s ← get
  let event : GenerationProgress :=
    { sequence := s.events, phase, iteration, coverage, acceptedCount
      acceptedSourceId := accepted.map (·.sourceId)
      coverageGain := accepted.map (·.coverageGain)
      stopReason := result.map (·.stopReason) }
  require event.Valid .value
  sink event
  modify fun s => { s with events := s.events + 1 }

/-- A phase with the defaults of the other arguments. -/
def publishPhase (phase : GenerationPhase) : Call Unit :=
  publish sink phase 0 (some 0) 0 none none

/-- `accepted`, the coordinator's callback. -/
def accepted (candidate : AcceptedCandidate) (coverage : Number) : Call Unit := do
  modify fun s => { s with accepted := s.accepted + 1 }
  let s ← get
  publish sink .candidateAccepted candidate.iteration coverage s.accepted (some candidate) none

/-- The acceptances of the loop, each through the adapter's progress callback. -/
def acceptAll : List Acceptance → Call Unit
  | [] => pure ()
  | acceptance :: rest => do
    let candidate ← found acceptance.candidate .value
    accepted sink candidate acceptance.coverage
    acceptAll rest

/-- The `except` clauses of the adapter's `run_repository`. -/
def adapterRaised : Raised → Raised
  | .application code operation => .application code operation
  | .missing => .application .dependencyUnavailable "generation.repository.run"
  | .value => .application .invalidRequest "generation.repository.run"
  | .contract => .application .engineContractViolation "generation.repository.run"
  | .runExecution _ _ => .application .engineUnavailable "generation.repository.run"
  | .other => .application .engineUnavailable "generation.repository.run"

def runRepository (engine : EngineRun) : Call RepositoryGenerationResult :=
  tryCatch (do
    acceptAll sink engine.acceptances
    settled engine.finish) fun e => throw (adapterRaised e)

/-- The `except` clauses of `execute`. -/
def executeRaised : Raised → Raised
  | .application code operation => .application code operation
  | _ => .application .engineUnavailable "generation.execute"

/-- The engine's run and the report of its result. -/
def generate (engine : EngineRun) : Call RepositoryGenerationResult := do
  let result ← runRepository sink engine
  let s ← get
  require (result.accepted.length = s.accepted) (.application .engineUnavailable "generation.progress")
  publish sink .finished result.iterations (some result.coverage) result.accepted.length none
    (some result)
  pure result

/-- The `try` of `execute`, with what `validate` does and the run of the engine. -/
def attempt (validate : Except Raised Unit) (engine : EngineRun) :
    Call RepositoryGenerationResult := do
  settled validate
  publishPhase sink .preparingRepository
  publishPhase sink .generating
  generate sink engine

/-- `execute`. -/
def execute (validate : Except Raised Unit) (engine : EngineRun) :
    Call RepositoryGenerationResult := do
  publishPhase sink .validating
  tryCatch (attempt sink validate engine) fun e => do
    publishPhase sink .failed
    throw (executeRaised e)

end GenerationCoordinator

/-! ## Staging -/

/-- A lowercase hexadecimal digit of the reference pattern. -/
def isHexDigit (c : Char) : Bool := ('0' ≤ c && c ≤ '9') || ('a' ≤ c && c ≤ 'f')

def stagedArtifactPrefix : String := "staged-artifact://sha256/"

structure StagedArtifactResult where
  stagedArtifactRef : String
  sizeBytes : Nat
  reference : ∃ digest : List Char, stagedArtifactRef.toList = stagedArtifactPrefix.toList ++ digest ∧
    digest.length = 64 ∧ digest.all isHexDigit = true
  size : 1 ≤ sizeBytes ∧ sizeBytes ≤ 100 * 1024 * 1024

/-- The digest a reference names: `removeprefix`. -/
def StagedArtifactResult.sha256 (claim : StagedArtifactResult) : List Char :=
  claim.stagedArtifactRef.toList.drop stagedArtifactPrefix.toList.length

/-- What the handler is given besides the coordinator: how a result is written out, the
digest of bytes, and the artifact stager, none where it raises. -/
structure Staging where
  dump : RepositoryGenerationResult → List UInt8
  sha256 : List UInt8 → List Char
  stage : List UInt8 → List Char → Option String

/-- `StagedArtifactResult(...)`. -/
def StagedArtifactResult.build (reference : String) (sizeBytes : Nat) : Except Raised StagedArtifactResult :=
  if href : stagedArtifactPrefix.toList ++ reference.toList.drop stagedArtifactPrefix.toList.length =
      reference.toList ∧ (reference.toList.drop stagedArtifactPrefix.toList.length).length = 64 ∧
      (reference.toList.drop stagedArtifactPrefix.toList.length).all isHexDigit = true then
    if hsize : 1 ≤ sizeBytes ∧ sizeBytes ≤ 100 * 1024 * 1024 then
      .ok ⟨reference, sizeBytes, ⟨_, href.1.symm, href.2⟩, hsize⟩
    else .error .value
  else .error .value

/-- From the result to its claim. -/
def Staging.claim (staging : Staging) (result : RepositoryGenerationResult) :
    Except Raised StagedArtifactResult :=
  let payload := staging.dump result
  if maxRepositoryResultArtifactBytes < payload.length then
    .error (.application .engineContractViolation "generation.repository.artifact.size")
  else
    let digest := staging.sha256 payload
    match staging.stage payload digest with
    | none => .error (.application .engineUnavailable "generation.repository.artifact.staging")
    | some reference =>
      match StagedArtifactResult.build reference payload.length with
      | .error e => .error e
      | .ok claim =>
        if claim.sha256 ≠ digest then
          .error (.application .engineContractViolation
            "generation.repository.artifact.staging_reference")
        else .ok claim

/-! ## The durable handler -/

namespace DurableHandler

variable (emit : Option (DurableRunProgress → Call Unit)) (request : RepositoryGenerationRequest)

/-- `publish` of the handler. -/
def publish (phase : RunProgressPhase) (completed : Option Nat) (coverage : Option Number)
    (acceptedCount : Option Nat) : Call Unit :=
  match emit with
  | none => pure ()
  | some emit => do
    let s ← get
    let progress : DurableRunProgress :=
      { sequence := s.sequence, phase, completed
        total := if completed.isSome then some request.totalIterations else none
        coverage, acceptedCount }
    require progress.Valid .value
    emit progress
    modify fun s => { s with lastPhase := some phase, sequence := s.sequence + 1 }

/-- `track`, the sink of the coordinator. -/
def track (event : GenerationProgress) : Call Unit := do
  let phase ← found (RunProgressPhase.ofValue event.phase.value) .value
  if event.phase = .candidateAccepted ∧
      ¬ (event.acceptedCount = 1 ∨ event.acceptedCount % request.candidateStride = 0) then
    pure ()
  else
    publish emit request (if event.phase = .finished then .stagingResult else phase)
      (if event.phase ∈ [.generating, .candidateAccepted, .finished] then
        some (min event.iteration request.totalIterations) else none)
      (if event.phase ∈ [.candidateAccepted, .finished] then some event.coverage else none)
      (if event.phase ∈ [.candidateAccepted, .finished] then some event.acceptedCount else none)

/-- The `except` clauses of `_execute`. -/
def recover : Raised → Call StagedArtifactResult
  | .value => do
    publish emit request .failed none none none
    throw (.application .engineContractViolation "generation.repository.artifact.staging_reference")
  | e => do
    let s ← get
    if s.lastPhase ≠ some .failed then
      publish emit request .failed none none none
      throw e
    else throw e

/-- The `try` of `_execute`. -/
def attempt (staging : Staging) (validate : Except Raised Unit) (engine : EngineRun) :
    Call StagedArtifactResult := do
  let result ← GenerationCoordinator.execute (track emit request) validate engine
  let claim ← settled (staging.claim result)
  publish emit request .finished (some (min result.iterations request.totalIterations))
    (some (some result.coverage)) (some result.accepted.length)
  pure claim

/-- `_execute`. -/
def execute (staging : Staging) (validate : Except Raised Unit) (engine : EngineRun) :
    Call StagedArtifactResult :=
  tryCatch (attempt emit request staging validate engine) (recover emit request)

end DurableHandler

/-- `execute_with_progress` in the child, from fresh variables. -/
def withProgress (repr : ℚ → Json.FloatText) (request : RepositoryGenerationRequest)
    (staging : Staging) (validate : Except Raised Unit) (engine : EngineRun) :
    Except Raised StagedArtifactResult × Reporting :=
  (DurableHandler.execute (some (childEmit repr)) request staging validate engine).run.run {}

/-- `execute`. -/
def withoutProgress (request : RepositoryGenerationRequest) (staging : Staging)
    (validate : Except Raised Unit) (engine : EngineRun) :
    Except Raised StagedArtifactResult × Reporting :=
  (DurableHandler.execute none request staging validate engine).run.run {}

end CorpusKit.RepositoryGeneration
