import CorpusKit.Domain.Corpora
import CorpusKit.Domain.Jobs
import Mathlib.Data.Rat.Defs

/-! # Run specifications

What the control plane reads of a run's JSON specification: the hash of its
canonical encoding, and the fields that policy, admission and authorization
look at once the kind's request model has accepted it. A specification the
model of its kind rejects has no such request. Durations and instants count
microseconds. -/

namespace CorpusKit

abbrev Duration := Nat
abbrev Instant := Nat

def seconds (n : Nat) : Duration := n * 1000000

structure GenerationStoppingCriteria where
  maxSentences : Option Nat
  maxIterations : Option Nat
  deriving DecidableEq, Repr

structure RepositoryGenerationRequest where
  stopping : GenerationStoppingCriteria
  activityTimeout : Duration
  deriving DecidableEq, Repr

structure HostedRunBudget where
  maxInputTokens : Nat
  maxOutputTokens : Nat
  maxCostUsd : Rat
  deriving DecidableEq, Repr

structure HostedGenerationRequest where
  stopping : GenerationStoppingCriteria
  budget : HostedRunBudget
  activityTimeout : Duration
  deriving DecidableEq, Repr

/-- An artifact a specification names by identifier and digest. -/
structure ArtifactReference where
  artifactId : Uuid
  sha256 : Sha256
  deriving DecidableEq, Repr

structure LocalGenerationRequest where
  stopping : GenerationStoppingCriteria
  maxNewTokens : Nat
  candidatesPerIteration : Nat
  activityTimeout : Duration
  phonRlAdapter : Option ArtifactReference
  deriving DecidableEq, Repr

structure LanguageModelAnalysisRequest where
  texts : Nat
  maxLength : Nat
  activityTimeout : Duration
  deriving DecidableEq, Repr

structure DatgIndexBuildRequest where
  activityTimeout : Duration
  deriving DecidableEq, Repr

structure DatgGuidedGenerationRequest where
  runtimeId : String
  language : String
  unit : String
  indexCacheKeySha256 : Sha256
  candidates : Nat
  maxNewTokens : Nat
  activityTimeout : Duration
  deriving DecidableEq, Repr

structure PhonRlTrainingParameters where
  numSteps : Nat
  batchSize : Nat
  maxNewTokens : Nat
  activityTimeout : Duration
  deriving DecidableEq, Repr

structure PhonRlTrainingRequest where
  parameters : PhonRlTrainingParameters
  /-- The static prompt source; `none` for a dynamic one. -/
  staticPromptSource : Option ArtifactReference
  deriving DecidableEq, Repr

/-- One text, or several. -/
structure PhonemizeRunSpec where
  text : Option String
  texts : List String
  language : String
  exactly_one_input : text.isNone ≠ texts.isEmpty
  bounds : texts.length ≤ 500 ∧ 2 ≤ language.length ∧ language.length ≤ 32
  deriving DecidableEq, Repr

structure EvaluateRunSpec where
  sentences : List String
  language : String
  bounds : (1 ≤ sentences.length ∧ sentences.length ≤ 500) ∧
    2 ≤ language.length ∧ language.length ≤ 32
  deriving DecidableEq, Repr

structure SelectRunSpec where
  candidates : List String
  language : String
  bounds : (1 ≤ candidates.length ∧ candidates.length ≤ 2000) ∧
    2 ≤ language.length ∧ language.length ≤ 32
  deriving DecidableEq, Repr

/-- The request model that accepts a specification. -/
inductive RunRequest
  | repository (request : RepositoryGenerationRequest)
  | hosted (request : HostedGenerationRequest)
  | local (request : LocalGenerationRequest)
  | analysis (request : LanguageModelAnalysisRequest)
  | datgIndex (request : DatgIndexBuildRequest)
  | datgGeneration (request : DatgGuidedGenerationRequest)
  | training (request : PhonRlTrainingRequest)
  | phonemize (request : PhonemizeRunSpec)
  | evaluate (request : EvaluateRunSpec)
  | select (request : SelectRunSpec)
  /-- A kind whose request no modelled service looks into. -/
  | core
  deriving DecidableEq, Repr

structure RunSpec where
  sha256 : Sha256
  request : RunRequest
  deriving DecidableEq, Repr

/-- A specification as it arrives: `none` where `normalize_run_spec` raises. -/
abbrev RawSpec := Option RunSpec

def normalizeRunSpec {σ : Type} (spec : RawSpec) (operation : String) : Transaction.Tx σ Error RunSpec :=
  Transaction.found spec (.invalidRequest operation)

end CorpusKit
