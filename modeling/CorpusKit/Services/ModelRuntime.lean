import CorpusKit.Domain.ModelRuntime
import CorpusKit.Library.Decimal

/-! # Prices and estimates of hosted models -/

namespace CorpusKit.ModelRuntime

/-! ## Prices -/

/-- The default context: 28 digits, and `Etiny` as the least exponent. -/
def decimalContext : Decimal.Context := ⟨28, -1000026, by decide⟩

/-- `_price`. -/
def price {τ : Type} (policy : HostedModelPolicy τ) (inputTokens outputTokens : Nat) : ℚ :=
  decimalContext.div
    (decimalContext.add (decimalContext.mul inputTokens policy.inputCostPerMillionUsd)
      (decimalContext.mul outputTokens policy.outputCostPerMillionUsd))
    1000000

section Price

variable {τ : Type} (policy : HostedModelPolicy τ) {i i' o o' : Nat}

theorem mul_tokens_mono {cost : ℚ} (hcost : 0 ≤ cost) (h : i ≤ i') :
    decimalContext.mul i cost ≤ decimalContext.mul i' cost := by
  have hcast : (i : ℚ) ≤ i' := by exact_mod_cast h
  exact Decimal.Context.round_mono (mul_nonneg (Nat.cast_nonneg i) hcost)
    (mul_le_mul_of_nonneg_right hcast hcost)

theorem mul_tokens_nonneg {cost : ℚ} (hcost : 0 ≤ cost) : 0 ≤ decimalContext.mul i cost :=
  Decimal.Context.round_nonneg (mul_nonneg (Nat.cast_nonneg i) hcost)

theorem sum_nonneg : 0 ≤ decimalContext.add (decimalContext.mul i policy.inputCostPerMillionUsd)
    (decimalContext.mul o policy.outputCostPerMillionUsd) :=
  Decimal.Context.round_nonneg
    (add_nonneg (mul_tokens_nonneg policy.inputCost_nonneg) (mul_tokens_nonneg policy.outputCost_nonneg))

/-- More tokens cost no less, however the arithmetic rounds. -/
theorem price_mono (hi : i ≤ i') (ho : o ≤ o') : price policy i o ≤ price policy i' o' := by
  have hin := mul_tokens_mono policy.inputCost_nonneg hi
  have hout := mul_tokens_mono policy.outputCost_nonneg ho
  have hsum : decimalContext.add (decimalContext.mul i policy.inputCostPerMillionUsd)
      (decimalContext.mul o policy.outputCostPerMillionUsd) ≤
      decimalContext.add (decimalContext.mul i' policy.inputCostPerMillionUsd)
        (decimalContext.mul o' policy.outputCostPerMillionUsd) :=
    Decimal.Context.round_mono
      (add_nonneg (mul_tokens_nonneg policy.inputCost_nonneg)
        (mul_tokens_nonneg policy.outputCost_nonneg))
      (add_le_add hin hout)
  have hmillion : (0 : ℚ) ≤ 1000000 := by norm_num
  exact Decimal.Context.round_mono (div_nonneg (sum_nonneg policy) hmillion)
    (div_le_div_of_nonneg_right hsum hmillion)

theorem price_zero : price policy 0 0 = 0 := by
  simp [price, Decimal.Context.mul, Decimal.Context.add, Decimal.Context.div,
    Decimal.Context.round_zero]

end Price

variable {τ : Type} [LinearOrder τ] [Zero τ]

/-! ## Authorization -/

/-- `authorize_hosted_prompt`. -/
def authorizeHostedPrompt (request : HostedGenerationRequest τ) (policy : HostedModelPolicy τ) :
    Except Error (Option HostedPromptTemplatePolicy) :=
  match request.promptTemplateId with
  | none => .ok none
  | some templateId =>
    match policy.promptTemplates.find? fun item => item.templateId = templateId with
    | none => .error (.invalidRequest "model_runtime.hosted.prompt_allowlist")
    | some promptPolicy => .ok (some promptPolicy)

/-- `authorize_hosted`. -/
def authorizeHosted (hostedModels : List (HostedModelPolicy τ)) (request : HostedGenerationRequest τ) :
    Except Error (HostedModelPolicy τ) :=
  match hostedModels.find? fun item => item.provider = request.selection.provider ∧
      item.model = request.selection.model ∧ item.connectionId = request.selection.connectionId with
  | none => .error (.invalidRequest "model_runtime.hosted.allowlist")
  | some policy =>
    if request.maxTokensPerRequest > policy.maxOutputTokensPerRequest then
      .error (.invalidRequest "model_runtime.hosted.output_limit")
    else (authorizeHostedPrompt request policy).map fun _ => policy

/-! ## Estimates -/

/-- `_conservative_prompt_tokens`. -/
def conservativePromptTokens (request : HostedGenerationRequest τ) :
    Option HostedPromptTemplatePolicy → Nat
  | some promptPolicy => promptPolicy.maxRenderedBytes
  | none => max 1 (defaultHostedPrompt request).utf8ByteSize

/-- `_require_first_hosted_call_fits`. -/
def requireFirstHostedCallFits (request : HostedGenerationRequest τ) (policy : HostedModelPolicy τ) :
    Except Error Unit := do
  let promptPolicy ← authorizeHostedPrompt request policy
  let promptTokens := conservativePromptTokens request promptPolicy
  if promptTokens > request.budget.maxInputTokens ∨
      request.maxTokensPerRequest > request.budget.maxOutputTokens ∨
      price policy promptTokens request.maxTokensPerRequest > request.budget.maxCostUsd then
    .error (.invalidRequest "model_runtime.hosted.budget")
  else .ok ()

/-- `estimate_hosted`. -/
def estimateHosted (hostedModels : List (HostedModelPolicy τ)) (request : HostedGenerationRequest τ) :
    Except Error (HostedCostEstimate τ) := do
  let policy ← authorizeHosted hostedModels request
  requireFirstHostedCallFits request policy
  let promptPolicy ← authorizeHostedPrompt request policy
  let promptTokens := conservativePromptTokens request promptPolicy
  let iterationCalls := request.maxIterations.getD request.budget.maxRequests
  let maximumRequests := min request.budget.maxRequests
    (iterationCalls * (request.retry.maxRetries + 1))
  let reservedInput := min request.budget.maxInputTokens (promptTokens * maximumRequests)
  let reservedOutput := min request.budget.maxOutputTokens
    (request.maxTokensPerRequest * maximumRequests)
  let estimatedCost := price policy reservedInput reservedOutput
  .ok {
    provider := request.selection.provider
    model := request.selection.model
    maximumRequests
    requestDelaySeconds := policy.requestDelaySeconds
    reservedInputTokens := reservedInput
    reservedOutputTokens := reservedOutput
    estimatedCeilingUsd := min estimatedCost request.budget.maxCostUsd
    authorizedCeilingUsd := request.budget.maxCostUsd }

theorem conservativePromptTokens_pos (request : HostedGenerationRequest τ)
    (promptPolicy : Option HostedPromptTemplatePolicy) :
    1 ≤ conservativePromptTokens request promptPolicy := by
  cases promptPolicy with
  | none => exact Nat.le_max_left _ _
  | some promptPolicy => exact promptPolicy.positive

/-- What an estimate promises, once the request and its prompt are authorized. -/
theorem estimateHosted_ok {hostedModels : List (HostedModelPolicy τ)}
    {request : HostedGenerationRequest τ} {policy : HostedModelPolicy τ}
    {promptPolicy : Option HostedPromptTemplatePolicy} {estimate : HostedCostEstimate τ}
    (hauth : authorizeHosted hostedModels request = .ok policy)
    (hprompt : authorizeHostedPrompt request policy = .ok promptPolicy)
    (h : estimateHosted hostedModels request = .ok estimate) :
    let iterationCalls := request.maxIterations.getD request.budget.maxRequests
    estimate.maximumRequests = min request.budget.maxRequests
        (iterationCalls * (request.retry.maxRetries + 1)) ∧
      estimate.reservedInputTokens = min request.budget.maxInputTokens
        (conservativePromptTokens request promptPolicy * estimate.maximumRequests) ∧
      estimate.reservedOutputTokens = min request.budget.maxOutputTokens
        (request.maxTokensPerRequest * estimate.maximumRequests) ∧
      estimate.estimatedCeilingUsd =
        min (price policy estimate.reservedInputTokens estimate.reservedOutputTokens)
          request.budget.maxCostUsd := by
  unfold estimateHosted at h
  simp only [hauth, hprompt, bind, Except.bind] at h
  split at h
  · cases h
  · cases h
    exact ⟨rfl, rfl, rfl, rfl⟩

end CorpusKit.ModelRuntime
