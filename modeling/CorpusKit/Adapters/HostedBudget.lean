import CorpusKit.Domain.Corpora
import CorpusKit.Services.ModelRuntime

/-! # The hosted budget runner

A run of hosted generation counts requests, tokens and cost. Each attempt of a
completion reserves before the provider is called and records what the provider
reports after it. The provider and the clock answer as they like. -/

namespace CorpusKit.ModelRuntime

variable {τ : Type} [LinearOrder τ] [Zero τ] [Add τ] [Sub τ] [SMul Nat τ]

/-- `_HostedBudgetRunner`. -/
structure HostedBudgetRunner (τ : Type) [LinearOrder τ] [Zero τ] where
  request : HostedGenerationRequest τ
  policy : HostedModelPolicy τ
  deadline : τ
  requests : Nat := 0
  retries : Nat := 0
  inputTokens : Nat := 0
  outputTokens : Nat := 0
  reservedInput : Nat := 0
  reservedOutput : Nat := 0
  actualCost : ℚ := 0
  reservedCost : ℚ := 0

/-- A provider's `retry_after_seconds`. -/
inductive RetryAfter (τ : Type)
  | absent
  | notFinite
  | seconds (seconds : τ)

/-- What the provider's client does with a request. -/
inductive ProviderAnswer (τ : Type)
  | completed (response : ProviderCompletion)
  | failed (retryable : Bool) (retryAfter : RetryAfter τ)
  | raised (error : Error)

/-- What an attempt meets: the clock before the delay, before the request and
after a failure, and the provider's answer. -/
structure Attempt (τ : Type) where
  pacedAt : τ
  startedAt : τ
  answer : ProviderAnswer τ
  failedAt : τ

/-- A request the provider's client was given, and the clock before it. -/
structure ProviderCall (τ : Type) where
  startedAt : τ
  timeoutSeconds : τ

/-- What a completion answers, the runner after it, the requests it made, and the
runner after each change of its counters. -/
structure Completion (τ : Type) [LinearOrder τ] [Zero τ] where
  result : Except Error ProviderCompletion
  runner : HostedBudgetRunner τ
  calls : List (ProviderCall τ) := []
  states : List (HostedBudgetRunner τ) := []

namespace HostedBudgetRunner

def start (request : HostedGenerationRequest τ) (policy : HostedModelPolicy τ) (clock : τ) :
    HostedBudgetRunner τ :=
  { request, policy, deadline := clock + request.activityTimeoutSeconds }

def deadlineError : Error := .engineUnavailable "model_runtime.hosted.deadline"
def providerError : Error := .engineUnavailable "model_runtime.hosted.provider"

/-- `_sleep_before_request`. -/
def sleepBeforeRequest (s : HostedBudgetRunner τ) (clock : τ) : Except Error Unit :=
  if s.policy.requestDelaySeconds ≤ 0 then .ok ()
  else if s.deadline ≤ clock + s.policy.requestDelaySeconds then .error deadlineError
  else .ok ()

/-- `_reserve`. -/
def reserve (s : HostedBudgetRunner τ) (inputTokens : Nat) (isRetry : Bool) :
    Except Error Unit × HostedBudgetRunner τ :=
  let outputTokens := s.request.maxTokensPerRequest
  let nextRequests := s.requests + 1
  let nextInput := s.reservedInput + inputTokens
  let nextOutput := s.reservedOutput + outputTokens
  let nextCost := price s.policy nextInput nextOutput
  if nextRequests > s.request.budget.maxRequests ∨ nextInput > s.request.budget.maxInputTokens ∨
      nextOutput > s.request.budget.maxOutputTokens ∨ nextCost > s.request.budget.maxCostUsd then
    (.error (.invalidRequest "model_runtime.hosted.budget_exhausted"), s)
  else
    (.ok (), { s with
      requests := nextRequests
      reservedInput := nextInput
      reservedOutput := nextOutput
      reservedCost := nextCost
      retries := if isRetry then s.retries + 1 else s.retries })

/-- `_record`. -/
def record (s : HostedBudgetRunner τ) (response : ProviderCompletion) (inputReservation : Nat) :
    Except Error Unit × HostedBudgetRunner τ :=
  if response.inputTokens < 0 ∨ response.outputTokens < 0 ∨
      response.inputTokens > inputReservation ∨
      response.outputTokens > s.request.maxTokensPerRequest then
    (.error (.engineContract "model_runtime.hosted.usage"), s)
  else
    let inputTokens := s.inputTokens + response.inputTokens.toNat
    let outputTokens := s.outputTokens + response.outputTokens.toNat
    let actualCost := price s.policy inputTokens outputTokens
    (if actualCost > s.request.budget.maxCostUsd then
        .error (.engineContract "model_runtime.hosted.usage") else .ok (),
      { s with inputTokens, outputTokens, actualCost })

/-- `_sleep_before_retry`. -/
def sleepBeforeRetry (s : HostedBudgetRunner τ) (attempt : Nat) (retryAfter : RetryAfter τ)
    (clock : τ) : Except Error Unit := do
  let retry := s.request.retry
  let exponential := min (2 ^ attempt • retry.baseDelaySeconds) retry.maxDelaySeconds
  let wanted ← match retryAfter with
    | .absent => .ok exponential
    | .notFinite => .error (.engineContract "model_runtime.hosted.retry_after")
    | .seconds seconds =>
      if seconds < 0 then .error (.engineContract "model_runtime.hosted.retry_after")
      else .ok seconds
  let delay := min wanted retry.maxDelaySeconds
  if delay ≤ 0 then .ok ()
  else if s.deadline ≤ clock + delay then .error deadlineError
  else .ok ()

/-- The loop of `complete`, with `left` attempts to go. -/
def completeFrom (inputReservation : Nat) (attempts : Nat → Attempt τ) :
    Nat → Nat → HostedBudgetRunner τ → Completion τ
  | 0, attempt, s => { result := .error (if 0 < attempt then providerError else deadlineError), runner := s }
  | left + 1, attempt, s =>
    let met := attempts attempt
    match s.sleepBeforeRequest met.pacedAt with
    | .error e => { result := .error e, runner := s }
    | .ok _ =>
      let remaining := s.deadline - met.startedAt
      if remaining ≤ 0 then { result := .error deadlineError, runner := s }
      else
        let reservation := s.reserve inputReservation (decide (0 < attempt))
        match reservation.1 with
        | .error e => { result := .error e, runner := reservation.2 }
        | .ok _ =>
          let reserved := reservation.2
          let call : ProviderCall τ :=
            ⟨met.startedAt, min s.request.retry.requestTimeoutSeconds remaining⟩
          match met.answer with
          | .raised e => ⟨.error e, reserved, [call], [reserved]⟩
          | .failed retryable retryAfter =>
            if !retryable || decide (s.request.retry.maxRetries ≤ attempt) then
              ⟨.error providerError, reserved, [call], [reserved]⟩
            else
              match reserved.sleepBeforeRetry attempt retryAfter met.failedAt with
              | .error e => ⟨.error e, reserved, [call], [reserved]⟩
              | .ok _ =>
                let rest := completeFrom inputReservation attempts left (attempt + 1) reserved
                ⟨rest.result, rest.runner, call :: rest.calls, reserved :: rest.states⟩
          | .completed response =>
            let recorded := reserved.record response inputReservation
            match recorded.1 with
            | .error e => ⟨.error e, recorded.2, [call], [reserved, recorded.2]⟩
            | .ok _ =>
              if (strip response.text.toList).isEmpty then
                ⟨.error (.engineUnavailable "model_runtime.hosted.empty_response"), recorded.2,
                  [call], [reserved, recorded.2]⟩
              else ⟨.ok response, recorded.2, [call], [reserved, recorded.2]⟩

/-- `len(prompt.encode("utf-8"))`, and at least one. -/
def inputReservation (prompt : String) : Nat := max 1 prompt.utf8ByteSize

def complete (s : HostedBudgetRunner τ) (prompt : String) (attempts : Nat → Attempt τ) :
    Completion τ :=
  completeFrom (inputReservation prompt) attempts (s.request.retry.maxRetries + 1) 0 s

/-! ## Runs -/

/-- A call of `complete` and what its attempts meet. -/
structure Event (τ : Type) where
  prompt : String
  attempts : Nat → Attempt τ

/-- What a run leaves: the runner, all requests made, and every state passed. -/
structure History (τ : Type) [LinearOrder τ] [Zero τ] where
  runner : HostedBudgetRunner τ
  calls : List (ProviderCall τ) := []
  states : List (HostedBudgetRunner τ) := []

def History.step (h : History τ) (event : Event τ) : History τ :=
  let done := h.runner.complete event.prompt event.attempts
  ⟨done.runner, h.calls ++ done.calls, h.states ++ done.states⟩

def history (s : HostedBudgetRunner τ) (events : List (Event τ)) : History τ :=
  events.foldl History.step { runner := s, states := [s] }

end HostedBudgetRunner

end CorpusKit.ModelRuntime
