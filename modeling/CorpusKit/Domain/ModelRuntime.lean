import CorpusKit.Domain.Errors
import Mathlib.Data.Rat.Defs
import Mathlib.Algebra.Order.Ring.Rat

/-! # Hosted models

Requests for generation by a hosted model, the policy that prices it, and the
estimate shown before a run. Seconds are of any ordered type `τ`: the code
compares, adds and subtracts them and relies on nothing else. -/

namespace CorpusKit.ModelRuntime

structure HostedModelSelection where
  provider : String
  model : String
  connectionId : String
  deriving DecidableEq, Repr

structure HostedPromptTemplatePolicy where
  templateId : String
  maxRenderedBytes : Nat
  positive : 1 ≤ maxRenderedBytes

structure HostedModelPolicy (τ : Type) where
  provider : String
  model : String
  connectionId : String
  inputCostPerMillionUsd : ℚ
  outputCostPerMillionUsd : ℚ
  maxOutputTokensPerRequest : Nat
  requestDelaySeconds : τ
  promptTemplates : List HostedPromptTemplatePolicy
  inputCost_nonneg : 0 ≤ inputCostPerMillionUsd
  outputCost_nonneg : 0 ≤ outputCostPerMillionUsd

structure HostedRunBudget where
  maxRequests : Nat
  maxInputTokens : Nat
  maxOutputTokens : Nat
  maxCostUsd : ℚ
  cost_pos : 0 < maxCostUsd

structure ProviderRetryPolicy (τ : Type) [LinearOrder τ] [Zero τ] where
  maxRetries : Nat
  requestTimeoutSeconds : τ
  baseDelaySeconds : τ
  maxDelaySeconds : τ
  timeout_pos : 0 < requestTimeoutSeconds

structure HostedGenerationRequest (τ : Type) [LinearOrder τ] [Zero τ] where
  selection : HostedModelSelection
  phonemes : List String
  language : String
  maxIterations : Option Nat
  candidatesPerIteration : Nat
  maxTokensPerRequest : Nat
  promptTemplateId : Option String
  retry : ProviderRetryPolicy τ
  budget : HostedRunBudget
  activityTimeoutSeconds : τ

structure HostedCostEstimate (τ : Type) where
  provider : String
  model : String
  maximumRequests : Nat
  requestDelaySeconds : τ
  reservedInputTokens : Nat
  reservedOutputTokens : Nat
  estimatedCeilingUsd : ℚ
  authorizedCeilingUsd : ℚ

structure ProviderCompletion where
  text : String
  inputTokens : Int
  outputTokens : Int
  deriving DecidableEq, Repr

section

variable {τ : Type} [LinearOrder τ] [Zero τ]

/-- `DEFAULT_HOSTED_PROMPT_TEMPLATE`, formatted. -/
def defaultHostedPrompt (request : HostedGenerationRequest τ) : String :=
  "Generate " ++ toString request.candidatesPerIteration ++ " short, natural sentences in " ++
    request.language ++ " that contain the following sounds (IPA phonemes):\n" ++
    "\n" ++
    "Target sounds: " ++ String.intercalate ", " request.phonemes ++ "\n" ++
    "\n" ++
    "Requirements:\n" ++
    "- Each sentence should be a complete, grammatically correct sentence.\n" ++
    "- Sentences should sound natural, not contrived.\n" ++
    "- Try to include as many of the target sounds as possible in each sentence.\n" ++
    "- One sentence per line, no numbering or bullet points.\n"

end

end CorpusKit.ModelRuntime
