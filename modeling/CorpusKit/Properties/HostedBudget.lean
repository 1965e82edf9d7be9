import CorpusKit.Adapters.HostedBudget
import Mathlib.Tactic.Ring

/-! # Hosted generation keeps its budget

Whatever the provider answers and the clock shows, no state of a run has more
reserved than the budget allows nor more used than reserved, and the run stays
within the estimate its request was given. -/

namespace CorpusKit.ModelRuntime

namespace HostedBudgetRunner

variable {τ : Type} [LinearOrder τ] [Zero τ] [Add τ] [Sub τ] [SMul Nat τ]
  {s : HostedBudgetRunner τ} {n bound : Nat} {isRetry : Bool} {response : ProviderCompletion}
  {attempts : Nat → Attempt τ} {P : HostedBudgetRunner τ → Prop}

/-! ## What a reservation and a report do -/

structure Within (s : HostedBudgetRunner τ) : Prop where
  requests : s.requests ≤ s.request.budget.maxRequests
  reservedInput : s.reservedInput ≤ s.request.budget.maxInputTokens
  reservedOutput : s.reservedOutput ≤ s.request.budget.maxOutputTokens
  reservedCost : s.reservedCost ≤ s.request.budget.maxCostUsd
  inputTokens : s.inputTokens ≤ s.reservedInput
  outputTokens : s.outputTokens ≤ s.reservedOutput
  actualCost : s.actualCost ≤ s.reservedCost
  retries : s.retries ≤ s.requests

/-- The costs are the prices of the tokens. -/
structure Sound (s : HostedBudgetRunner τ) : Prop extends Within s where
  reservedCost_eq : s.reservedCost = price s.policy s.reservedInput s.reservedOutput
  actualCost_eq : s.actualCost = price s.policy s.inputTokens s.outputTokens

omit [Add τ] [Sub τ] [SMul Nat τ] in
theorem reserve_cases (s : HostedBudgetRunner τ) (n : Nat) (isRetry : Bool) :
    (∃ e, s.reserve n isRetry = (.error e, s)) ∨
    (s.requests + 1 ≤ s.request.budget.maxRequests ∧
      s.reservedInput + n ≤ s.request.budget.maxInputTokens ∧
      s.reservedOutput + s.request.maxTokensPerRequest ≤ s.request.budget.maxOutputTokens ∧
      price s.policy (s.reservedInput + n) (s.reservedOutput + s.request.maxTokensPerRequest) ≤
        s.request.budget.maxCostUsd ∧
      s.reserve n isRetry = (.ok (), { s with
        requests := s.requests + 1
        reservedInput := s.reservedInput + n
        reservedOutput := s.reservedOutput + s.request.maxTokensPerRequest
        reservedCost := price s.policy (s.reservedInput + n)
          (s.reservedOutput + s.request.maxTokensPerRequest)
        retries := if isRetry then s.retries + 1 else s.retries })) := by
  unfold reserve
  dsimp only
  split
  · exact .inl ⟨_, rfl⟩
  · next hfits =>
    simp only [not_or, not_lt] at hfits
    exact .inr ⟨hfits.1, hfits.2.1, hfits.2.2.1, hfits.2.2.2, rfl⟩

omit [Add τ] [Sub τ] [SMul Nat τ] in
theorem record_cases (s : HostedBudgetRunner τ) (response : ProviderCompletion) (n : Nat) :
    (s.record response n).2 = s ∨
    ∃ i o, i ≤ n ∧ o ≤ s.request.maxTokensPerRequest ∧ (s.record response n).2 =
      { s with
        inputTokens := s.inputTokens + i
        outputTokens := s.outputTokens + o
        actualCost := price s.policy (s.inputTokens + i) (s.outputTokens + o) } := by
  unfold record
  split
  · exact .inl rfl
  · next hfits =>
    simp only [not_or, not_lt] at hfits
    exact .inr ⟨response.inputTokens.toNat, response.outputTokens.toNat, by omega, by omega, rfl⟩

omit [Add τ] [Sub τ] [SMul Nat τ] in
theorem reserve_refused {e : Error} (h : (s.reserve n isRetry).1 = .error e) :
    (s.reserve n isRetry).2 = s := by
  rcases reserve_cases s n isRetry with ⟨e, heq⟩ | ⟨-, -, -, -, heq⟩
  · rw [heq]
  · rw [heq] at h
    cases h

omit [Add τ] [Sub τ] [SMul Nat τ] in
theorem Sound.kept {reserved : HostedBudgetRunner τ} (h : Sound s)
    (hok : s.reserve n isRetry = (.ok (), reserved)) :
    Sound reserved ∧ ∀ response, Sound (reserved.record response n).2 := by
  rcases reserve_cases s n isRetry with ⟨e, heq⟩ | ⟨hrequests, hinput, houtput, hcost, heq⟩
  · rw [hok] at heq
    cases heq
  rw [hok] at heq
  obtain rfl := (Prod.mk.inj heq).2
  have hi := h.inputTokens
  have ho := h.outputTokens
  have hretries := h.retries
  have hroom : price s.policy s.inputTokens s.outputTokens ≤
      price s.policy (s.reservedInput + n) (s.reservedOutput + s.request.maxTokensPerRequest) :=
    price_mono s.policy (by omega) (by omega)
  constructor
  · refine ⟨⟨hrequests, hinput, houtput, hcost, ?_, ?_, ?_, ?_⟩, rfl, h.actualCost_eq⟩
    · show s.inputTokens ≤ s.reservedInput + n
      omega
    · show s.outputTokens ≤ s.reservedOutput + s.request.maxTokensPerRequest
      omega
    · show s.actualCost ≤ _
      rw [h.actualCost_eq]
      exact hroom
    · show (if isRetry then s.retries + 1 else s.retries) ≤ s.requests + 1
      split <;> omega
  · intro response
    have hretry : (if isRetry then s.retries + 1 else s.retries) ≤ s.requests + 1 := by
      split <;> omega
    -- A report stays below what its own reservation added.
    rcases record_cases (τ := τ) _ response n with hsame | ⟨i, o, hin, hon, hnext⟩
    · rw [hsame]
      refine ⟨⟨hrequests, hinput, houtput, hcost, ?_, ?_, ?_, hretry⟩, rfl, h.actualCost_eq⟩
      · exact hi.trans (Nat.le_add_right _ _)
      · exact ho.trans (Nat.le_add_right _ _)
      · exact h.actualCost_eq.le.trans hroom
    · rw [hnext]
      exact ⟨⟨hrequests, hinput, houtput, hcost, Nat.add_le_add hi hin, Nat.add_le_add ho hon,
        price_mono s.policy (Nat.add_le_add hi hin) (Nat.add_le_add ho hon), hretry⟩, rfl, rfl⟩

/-! ## Completions -/

/-- The client waits no longer than the run may last. -/
def Timely (deadline : τ) (call : ProviderCall τ) : Prop :=
  0 < call.timeoutSeconds ∧ call.timeoutSeconds ≤ deadline - call.startedAt

/-- An attempt makes no request, or one after which the loop stops, records what
it was told, or goes on. -/
theorem completeFrom_cases (n : Nat) (attempts : Nat → Attempt τ) (left attempt : Nat)
    (s : HostedBudgetRunner τ) :
    let run := completeFrom n attempts (left + 1) attempt s
    (run.runner = s ∧ run.calls = [] ∧ run.states = []) ∨
    ∃ isRetry call reserved, s.reserve n isRetry = (.ok (), reserved) ∧ Timely s.deadline call ∧
      ((run.runner = reserved ∧ run.calls = [call] ∧ run.states = [reserved]) ∨
      (∃ response, run.runner = (reserved.record response n).2 ∧ run.calls = [call] ∧
        run.states = [reserved, (reserved.record response n).2]) ∨
      (run.runner = (completeFrom n attempts left (attempt + 1) reserved).runner ∧
        run.calls = call :: (completeFrom n attempts left (attempt + 1) reserved).calls ∧
        run.states = reserved :: (completeFrom n attempts left (attempt + 1) reserved).states)) := by
  dsimp only
  rw [completeFrom]
  dsimp only
  split
  · exact .inl ⟨rfl, rfl, rfl⟩
  split
  · exact .inl ⟨rfl, rfl, rfl⟩
  next hremaining =>
  split
  · next hrefused => exact .inl ⟨reserve_refused hrefused, rfl, rfl⟩
  next hok =>
  refine .inr ⟨_, ⟨(attempts attempt).startedAt, _⟩, _, Prod.ext hok rfl,
    ⟨lt_min s.request.retry.timeout_pos (not_le.mp hremaining), min_le_right _ _⟩, ?_⟩
  split
  · exact .inl ⟨rfl, rfl, rfl⟩
  · split
    · exact .inl ⟨rfl, rfl, rfl⟩
    · split
      · exact .inl ⟨rfl, rfl, rfl⟩
      · exact .inr (.inr ⟨rfl, rfl, rfl⟩)
  · next response _ =>
    split
    · exact .inr (.inl ⟨response, rfl, rfl, rfl⟩)
    · split <;> exact .inr (.inl ⟨response, rfl, rfl, rfl⟩)

/-- What reservations and reports keep holds of every state a completion passes. -/
theorem completeFrom_keeps
    (hkept : ∀ s isRetry reserved, P s → s.reserve n isRetry = (.ok (), reserved) →
      P reserved ∧ ∀ response, P (reserved.record response n).2)
    (attempts : Nat → Attempt τ) (left attempt : Nat) (h : P s) :
    P (completeFrom n attempts left attempt s).runner ∧
      ∀ t ∈ (completeFrom n attempts left attempt s).states, P t := by
  induction left generalizing attempt s with
  | zero => exact ⟨h, nofun⟩
  | succ left ih =>
    rcases completeFrom_cases n attempts left attempt s with
      ⟨hrunner, -, hstates⟩ | ⟨isRetry, call, reserved, hok, -, hrest⟩
    · rw [hrunner, hstates]
      exact ⟨h, nofun⟩
    obtain ⟨hreserved, hrecorded⟩ := hkept s isRetry reserved h hok
    rcases hrest with ⟨hrunner, -, hstates⟩ | ⟨response, hrunner, -, hstates⟩ |
      ⟨hrunner, -, hstates⟩
    · rw [hrunner, hstates]
      exact ⟨hreserved, by simpa using hreserved⟩
    · rw [hrunner, hstates]
      exact ⟨hrecorded response, by simpa using ⟨hreserved, hrecorded response⟩⟩
    · rw [hrunner, hstates]
      obtain ⟨hlast, hall⟩ := ih (attempt + 1) hreserved
      refine ⟨hlast, fun t ht => ?_⟩
      rcases List.mem_cons.mp ht with rfl | ht
      · exact hreserved
      · exact hall t ht

omit [Add τ] [Sub τ] [SMul Nat τ] in
/-- The request, the policy and the deadline never change. -/
theorem reserve_fixed {reserved : HostedBudgetRunner τ}
    (hok : s.reserve n isRetry = (.ok (), reserved)) :
    reserved.request = s.request ∧ reserved.policy = s.policy ∧ reserved.deadline = s.deadline ∧
      reserved.requests = s.requests + 1 ∧ reserved.reservedInput = s.reservedInput + n ∧
      reserved.reservedOutput = s.reservedOutput + s.request.maxTokensPerRequest := by
  rcases reserve_cases s n isRetry with ⟨e, heq⟩ | ⟨-, -, -, -, heq⟩
  · rw [hok] at heq
    cases heq
  · rw [hok] at heq
    cases heq
    exact ⟨rfl, rfl, rfl, rfl, rfl, rfl⟩

omit [Add τ] [Sub τ] [SMul Nat τ] in
theorem record_fixed (s : HostedBudgetRunner τ) (response : ProviderCompletion) (n : Nat) :
    (s.record response n).2.request = s.request ∧ (s.record response n).2.policy = s.policy ∧
      (s.record response n).2.deadline = s.deadline ∧
      (s.record response n).2.requests = s.requests ∧
      (s.record response n).2.reservedInput = s.reservedInput ∧
      (s.record response n).2.reservedOutput = s.reservedOutput := by
  rcases record_cases s response n with heq | ⟨i, o, -, -, heq⟩ <;> simp [heq]

/-- Every request is counted, and each attempt makes at most one. -/
theorem completeFrom_requests (n : Nat) (attempts : Nat → Attempt τ) (left attempt : Nat) (s : HostedBudgetRunner τ) :
    let run := completeFrom n attempts left attempt s
    run.runner.requests = s.requests + run.calls.length ∧
      run.runner.requests ≤ s.requests + left ∧
      (∀ t ∈ run.states, t.requests ≤ s.requests + left) ∧
      ∀ call ∈ run.calls, Timely s.deadline call := by
  induction left generalizing attempt s with
  | zero => exact ⟨rfl, Nat.le_refl _, nofun, nofun⟩
  | succ left ih =>
    dsimp only
    rcases completeFrom_cases n attempts left attempt s with
      ⟨hrunner, hcalls, hstates⟩ | ⟨isRetry, call, reserved, hok, htimely, hrest⟩
    · rw [hrunner, hcalls, hstates]
      exact ⟨rfl, Nat.le_add_right _ _, nofun, nofun⟩
    obtain ⟨-, -, hdeadline, hone, -, -⟩ := reserve_fixed hok
    rcases hrest with ⟨hrunner, hcalls, hstates⟩ | ⟨response, hrunner, hcalls, hstates⟩ |
      ⟨hrunner, hcalls, hstates⟩
    · rw [hrunner, hcalls, hstates]
      simp only [List.length_singleton, List.mem_singleton, forall_eq]
      exact ⟨hone, by omega, by omega, htimely⟩
    · have hsame := (record_fixed reserved response n).2.2.2.1
      rw [hrunner, hcalls, hstates]
      simp only [List.length_singleton, forall_eq, List.mem_cons, List.not_mem_nil, or_false,
        forall_eq_or_imp]
      exact ⟨by omega, by omega, ⟨by omega, by omega⟩, htimely⟩
    · obtain ⟨hcount, hbound, hall, hcallsTimely⟩ := ih (attempt + 1) reserved
      rw [hrunner, hcalls, hstates]
      refine ⟨?_, by omega, fun t ht => ?_, fun c hc => ?_⟩
      · rw [List.length_cons]
        omega
      · rcases List.mem_cons.mp ht with rfl | ht
        · omega
        · have := hall t ht
          omega
      · rcases List.mem_cons.mp hc with rfl | hc
        · exact htimely
        · exact hdeadline ▸ hcallsTimely c hc

/-! ## Runs -/

/-- Kept by every event's completion, a property holds of all states of a run. -/
theorem history_keeps {events : List (Event τ)}
    (hkept : ∀ event ∈ events, ∀ s isRetry reserved, P s →
      s.reserve (inputReservation event.prompt) isRetry = (.ok (), reserved) →
      P reserved ∧ ∀ response, P (reserved.record response (inputReservation event.prompt)).2)
    (h : P s) : P (history s events).runner ∧ ∀ t ∈ (history s events).states, P t := by
  have hrun : ∀ (hist : History τ), P hist.runner → (∀ t ∈ hist.states, P t) →
      P (events.foldl History.step hist).runner ∧
        ∀ t ∈ (events.foldl History.step hist).states, P t := by
    induction events with
    | nil => exact fun _ hrunner hstates => ⟨hrunner, hstates⟩
    | cons event events ih =>
      intro hist hrunner hstates
      obtain ⟨hlast, hall⟩ := completeFrom_keeps
        (hkept event List.mem_cons_self) event.attempts (hist.runner.request.retry.maxRetries + 1) 0 hrunner
      refine ih (fun e he => hkept e (List.mem_cons_of_mem _ he)) _ hlast fun t ht => ?_
      rcases List.mem_append.mp ht with hold | hnew
      · exact hstates t hold
      · exact hall t hnew
  exact hrun _ h fun t ht => List.mem_singleton.mp ht ▸ h

/-- The request, the policy and the deadline of a run. -/
def SameRun (s t : HostedBudgetRunner τ) : Prop :=
  t.request = s.request ∧ t.policy = s.policy ∧ t.deadline = s.deadline

omit [Add τ] [Sub τ] [SMul Nat τ] in
theorem SameRun.kept {t reserved : HostedBudgetRunner τ} (h : SameRun s t)
    (hok : t.reserve n isRetry = (.ok (), reserved)) :
    SameRun s reserved ∧ ∀ response, SameRun s (reserved.record response n).2 := by
  rcases h with ⟨hrequest, hpolicy, hdeadline⟩
  obtain ⟨hr, hp, hd, -⟩ := reserve_fixed hok
  refine ⟨⟨hr.trans hrequest, hp.trans hpolicy, hd.trans hdeadline⟩, fun response => ?_⟩
  obtain ⟨hr', hp', hd', -⟩ := record_fixed reserved response n
  exact ⟨hr'.trans (hr.trans hrequest), hp'.trans (hp.trans hpolicy), hd'.trans (hd.trans hdeadline)⟩

/-- What a run of `count` completions has counted. -/
structure Counted (s : HostedBudgetRunner τ) (count : Nat) (hist : History τ) : Prop where
  same : SameRun s hist.runner
  requests : hist.runner.requests ≤ count * (s.request.retry.maxRetries + 1)
  states : ∀ t ∈ hist.states, t.requests ≤ count * (s.request.retry.maxRetries + 1)
  calls : hist.calls.length = hist.runner.requests
  timely : ∀ call ∈ hist.calls, Timely s.deadline call

theorem Counted.step {count : Nat} {hist : History τ} (h : Counted s count hist) (event : Event τ) :
    Counted s (count + 1) (hist.step event) := by
  obtain ⟨hcount, hbound, hstates, htimely⟩ := completeFrom_requests
    (inputReservation event.prompt) event.attempts
    (hist.runner.request.retry.maxRetries + 1) 0 hist.runner
  obtain ⟨hsame, -⟩ := completeFrom_keeps (P := SameRun s) (n := inputReservation event.prompt)
    (fun _ _ _ hs hok => hs.kept hok) event.attempts
    (hist.runner.request.retry.maxRetries + 1) 0 h.same
  have hmore : (count + 1) * (s.request.retry.maxRetries + 1) =
      count * (s.request.retry.maxRetries + 1) + (s.request.retry.maxRetries + 1) := by ring
  have hrequests := h.requests
  rw [h.same.1] at hcount hbound hstates htimely hsame
  refine ⟨?_, ?_, fun t ht => ?_, ?_, fun call hcall => ?_⟩
  · show SameRun s (hist.runner.complete event.prompt event.attempts).runner
    rw [complete, h.same.1]
    exact hsame
  · show (hist.runner.complete event.prompt event.attempts).runner.requests ≤ _
    rw [complete, h.same.1]
    omega
  · rcases List.mem_append.mp ht with hold | hnew
    · have := h.states t hold
      omega
    · rw [complete, h.same.1] at hnew
      have := hstates t hnew
      omega
  · show (hist.calls ++ (hist.runner.complete event.prompt event.attempts).calls).length =
      (hist.runner.complete event.prompt event.attempts).runner.requests
    rw [complete, h.same.1, List.length_append, h.calls, hcount]
  · rcases List.mem_append.mp hcall with hold | hnew
    · exact h.timely call hold
    · rw [complete, h.same.1] at hnew
      exact h.same.2.2 ▸ htimely call hnew

theorem history_counted (s : HostedBudgetRunner τ) (hzero : s.requests = 0) (events : List (Event τ)) :
    Counted s events.length (history s events) := by
  have hrun : ∀ count hist, Counted s count hist →
      Counted s (count + events.length) (events.foldl History.step hist) := by
    induction events with
    | nil => exact fun _ _ h => h
    | cons event events ih =>
      intro count hist h
      rw [List.length_cons, Nat.add_comm events.length 1, ← Nat.add_assoc]
      exact ih (count + 1) _ (h.step event)
  have hstart : Counted s 0 { runner := s, states := [s] } := by
    refine ⟨⟨rfl, rfl, rfl⟩, ?_, fun t ht => ?_, ?_, nofun⟩
    · simp [hzero]
    · rw [List.mem_singleton.mp ht, hzero]
      exact Nat.zero_le _
    · simp [hzero]
  have := hrun 0 _ hstart
  rwa [Nat.zero_add] at this

/-! ## The budget and the estimate -/

omit [Sub τ] [SMul Nat τ] in
theorem sound_start (request : HostedGenerationRequest τ) (policy : HostedModelPolicy τ)
    (clock : τ) : Sound (start request policy clock) where
  requests := Nat.zero_le _
  reservedInput := Nat.zero_le _
  reservedOutput := Nat.zero_le _
  reservedCost := request.budget.cost_pos.le
  inputTokens := Nat.le_refl 0
  outputTokens := Nat.le_refl 0
  actualCost := le_refl _
  retries := Nat.le_refl 0
  reservedCost_eq := (price_zero policy).symm
  actualCost_eq := (price_zero policy).symm

/-- Every request reserves at most `bound` input tokens and the same output. -/
def Proportional (bound : Nat) (s : HostedBudgetRunner τ) : Prop :=
  s.reservedInput ≤ bound * s.requests ∧
    s.reservedOutput = s.request.maxTokensPerRequest * s.requests

omit [Add τ] [Sub τ] [SMul Nat τ] in
theorem Proportional.kept {reserved : HostedBudgetRunner τ} (h : Proportional bound s) (hn : n ≤ bound)
    (hok : s.reserve n isRetry = (.ok (), reserved)) :
    Proportional bound reserved ∧ ∀ response, Proportional bound (reserved.record response n).2 := by
  obtain ⟨hrequest, -, -, hrequests, hinput, houtput⟩ := reserve_fixed hok
  have hreserved : Proportional bound reserved := by
    rcases h with ⟨hin, hout⟩
    constructor
    · rw [hinput, hrequests, Nat.mul_add, Nat.mul_one]
      exact Nat.add_le_add hin hn
    · rw [houtput, hrequests, hrequest, hout, Nat.mul_add, Nat.mul_one]
  refine ⟨hreserved, fun response => ?_⟩
  obtain ⟨hrequest', -, -, hrequests', hinput', houtput'⟩ := record_fixed reserved response n
  unfold Proportional
  rw [hrequest', hrequests', hinput', houtput']
  exact hreserved

/-- What a run shows of its state is within what the user was shown. -/
structure WithinEstimate (estimate : HostedCostEstimate τ) (s : HostedBudgetRunner τ) : Prop where
  requests : s.requests ≤ estimate.maximumRequests
  reservedInput : s.reservedInput ≤ estimate.reservedInputTokens
  reservedOutput : s.reservedOutput ≤ estimate.reservedOutputTokens
  reservedCost : s.reservedCost ≤ estimate.estimatedCeilingUsd

omit [Add τ] [Sub τ] [SMul Nat τ] in
theorem Sound.withinEstimate {hostedModels : List (HostedModelPolicy τ)}
    {promptPolicy : Option HostedPromptTemplatePolicy} {estimate : HostedCostEstimate τ} (h : Sound s)
    (hauth : authorizeHosted hostedModels s.request = .ok s.policy)
    (hprompt : authorizeHostedPrompt s.request s.policy = .ok promptPolicy)
    (hestimate : estimateHosted hostedModels s.request = .ok estimate)
    (hshare : Proportional (conservativePromptTokens s.request promptPolicy) s)
    (hcount : s.requests ≤ s.request.maxIterations.getD s.request.budget.maxRequests *
      (s.request.retry.maxRetries + 1)) : WithinEstimate estimate s := by
  obtain ⟨hmaximum, hinput, houtput, hceiling⟩ := estimateHosted_ok hauth hprompt hestimate
  have hrequests : s.requests ≤ estimate.maximumRequests := by
    rw [hmaximum]
    exact le_min h.requests hcount
  have hin : s.reservedInput ≤ estimate.reservedInputTokens := by
    rw [hinput]
    exact le_min h.reservedInput (hshare.1.trans (Nat.mul_le_mul_left _ hrequests))
  have hout : s.reservedOutput ≤ estimate.reservedOutputTokens := by
    rw [houtput]
    refine le_min h.reservedOutput ?_
    rw [hshare.2]
    exact Nat.mul_le_mul_left _ hrequests
  refine ⟨hrequests, hin, hout, ?_⟩
  rw [hceiling, h.reservedCost_eq]
  exact le_min (price_mono s.policy hin hout) (h.reservedCost_eq ▸ h.reservedCost)

/-- Hosted generation keeps its budget, whatever the provider answers and the
clock shows, and stays within its estimate while prompts and completions do. -/
theorem hosted_budget_kept {hostedModels : List (HostedModelPolicy τ)}
    {request : HostedGenerationRequest τ} {policy : HostedModelPolicy τ}
    (hauth : authorizeHosted hostedModels request = .ok policy) (clock : τ)
    (events : List (Event τ)) :
    let run := history (start request policy clock) events
    (∀ s ∈ run.states, Within s ∧ s.request = request) ∧
    run.calls.length ≤ request.budget.maxRequests ∧
    (∀ call ∈ run.calls, 0 < call.timeoutSeconds ∧
      call.timeoutSeconds ≤ clock + request.activityTimeoutSeconds - call.startedAt) ∧
    (∀ (s : HostedBudgetRunner τ) inputTokens isRetry e,
      (s.reserve inputTokens isRetry).1 = .error e → (s.reserve inputTokens isRetry).2 = s) ∧
    ∀ estimate promptPolicy, estimateHosted hostedModels request = .ok estimate →
      authorizeHostedPrompt request policy = .ok promptPolicy →
      (∀ event ∈ events,
        event.prompt.utf8ByteSize ≤ conservativePromptTokens request promptPolicy) →
      (∀ maxIterations, request.maxIterations = some maxIterations → events.length ≤ maxIterations) →
      ∀ s ∈ run.states, WithinEstimate estimate s := by
  dsimp only
  have hsound : Sound (history (start request policy clock) events).runner ∧
      ∀ t ∈ (history (start request policy clock) events).states, Sound t :=
    history_keeps (fun _ _ _ _ _ hs hok => hs.kept hok) (sound_start request policy clock)
  have hsame : SameRun (start request policy clock) (history (start request policy clock) events).runner ∧
      ∀ t ∈ (history (start request policy clock) events).states,
        SameRun (start request policy clock) t :=
    history_keeps (fun _ _ _ _ _ hs hok => hs.kept hok) ⟨rfl, rfl, rfl⟩
  have hcounted := history_counted (start request policy clock) rfl events
  refine ⟨fun s hs => ⟨(hsound.2 s hs).toWithin, (hsame.2 s hs).1⟩, ?_, fun call hcall => ?_,
    fun s n isRetry e h => reserve_refused h, ?_⟩
  · have hmax := hsound.1.requests
    rw [hsame.1.1] at hmax
    exact hcounted.calls.le.trans hmax
  · exact hcounted.timely call hcall
  · intro estimate promptPolicy hestimate hprompt hprompts hiterations s hs
    have hshare : Proportional (conservativePromptTokens request promptPolicy)
        (history (start request policy clock) events).runner ∧
        ∀ t ∈ (history (start request policy clock) events).states,
          Proportional (conservativePromptTokens request promptPolicy) t := by
      refine history_keeps (fun event hevent _ _ _ ht hok => ht.kept ?_ hok) ⟨Nat.zero_le _, rfl⟩
      exact max_le (conservativePromptTokens_pos request promptPolicy) (hprompts event hevent)
    obtain ⟨hrequest, hpolicy, -⟩ := hsame.2 s hs
    have hown := hsound.2 s hs
    have hcount := hcounted.states s hs
    -- Without a limit on the iterations the budget's requests stand in for it.
    have hcalls : s.requests ≤ request.maxIterations.getD request.budget.maxRequests *
        (request.retry.maxRetries + 1) := by
      cases hlimit : request.maxIterations with
      | some maxIterations => exact hcount.trans (Nat.mul_le_mul_right _ (hiterations _ hlimit))
      | none =>
        have hmax := hown.requests
        rw [hrequest] at hmax
        exact hmax.trans (Nat.le_mul_of_pos_right _ (Nat.succ_pos _))
    have hstate := hshare.2 s hs
    have hstart : (start request policy clock).request = request ∧
        (start request policy clock).policy = policy := ⟨rfl, rfl⟩
    rw [hstart.1] at hrequest
    rw [hstart.2] at hpolicy
    subst hrequest hpolicy
    exact hown.withinEstimate hauth hprompt hestimate hstate hcalls

/-! ### A small run -/

def samplePolicy : HostedModelPolicy ℚ where
  provider := "openai"
  model := "openai/small"
  connectionId := "main"
  inputCostPerMillionUsd := 1 / 2
  outputCostPerMillionUsd := 2
  maxOutputTokensPerRequest := 512
  requestDelaySeconds := 0
  promptTemplates := []
  inputCost_nonneg := by norm_num
  outputCost_nonneg := by norm_num

def sampleRequest : HostedGenerationRequest ℚ where
  selection := ⟨"openai", "openai/small", "main"⟩
  phonemes := ["a"]
  language := "en-us"
  maxIterations := some 1
  candidatesPerIteration := 5
  maxTokensPerRequest := 512
  promptTemplateId := none
  retry := ⟨2, 20, 1 / 4, 5, by norm_num⟩
  budget := ⟨10, 20000, 10000, 1, by norm_num⟩
  activityTimeoutSeconds := 60

/-- What the user is shown before the run: three requests at most, each with the
whole prompt. -/
def sampleEstimate : HostedCostEstimate ℚ where
  provider := "openai"
  model := "openai/small"
  maximumRequests := 3
  requestDelaySeconds := 0
  reservedInputTokens := 1137
  reservedOutputTokens := 1536
  estimatedCeilingUsd := 7281 / 2000000
  authorizedCeilingUsd := 1

theorem authorizeHosted_sample :
    authorizeHosted [samplePolicy] sampleRequest = .ok samplePolicy := by
  simp [authorizeHosted, sampleRequest, samplePolicy, authorizeHostedPrompt, Except.map]

theorem conservativePromptTokens_sample : conservativePromptTokens sampleRequest none = 379 := by
  decide +kernel

theorem requireFirstHostedCallFits_sample :
    requireFirstHostedCallFits sampleRequest samplePolicy = .ok () := by
  have hfits : ¬(379 > sampleRequest.budget.maxInputTokens ∨
      sampleRequest.maxTokensPerRequest > sampleRequest.budget.maxOutputTokens ∨
      price samplePolicy 379 sampleRequest.maxTokensPerRequest > sampleRequest.budget.maxCostUsd) := by
    decide +kernel
  have hprompt : authorizeHostedPrompt sampleRequest samplePolicy = .ok none := rfl
  simp only [requireFirstHostedCallFits, hprompt, bind, Except.bind,
    conservativePromptTokens_sample, if_neg hfits]

theorem estimateHosted_sample :
    estimateHosted [samplePolicy] sampleRequest = .ok sampleEstimate := by
  have hprompt : authorizeHostedPrompt sampleRequest samplePolicy = .ok none := rfl
  have hprice : min (price samplePolicy 1137 1536) 1 = 7281 / 2000000 := by decide +kernel
  simp only [estimateHosted, authorizeHosted_sample, requireFirstHostedCallFits_sample, hprompt,
    conservativePromptTokens_sample, bind, Except.bind]
  exact congrArg (fun cost => Except.ok { sampleEstimate with estimatedCeilingUsd := cost }) hprice

/-- The prompt of the request, at a provider that fails once and then reports its
usage. -/
def sampleEvent : Event ℚ where
  prompt := defaultHostedPrompt sampleRequest
  attempts attempt := ⟨0, 0, if attempt = 0 then .failed true .absent else .completed ⟨"a", 3, 1⟩, 0⟩

theorem hosted_budget_kept_sample :
    let run := history (start sampleRequest samplePolicy 0) [sampleEvent]
    (∀ s ∈ run.states, Within s ∧ s.request = sampleRequest) ∧
    run.calls.length ≤ 10 ∧
    (∀ call ∈ run.calls, 0 < call.timeoutSeconds ∧ call.timeoutSeconds ≤ 0 + 60 - call.startedAt) ∧
    (∀ (s : HostedBudgetRunner ℚ) inputTokens isRetry e,
      (s.reserve inputTokens isRetry).1 = .error e → (s.reserve inputTokens isRetry).2 = s) ∧
    ∀ s ∈ run.states, WithinEstimate sampleEstimate s := by
  obtain ⟨hwithin, hcalls, htimely, hrefused, hestimate⟩ :=
    hosted_budget_kept authorizeHosted_sample 0 [sampleEvent]
  refine ⟨hwithin, hcalls, htimely, hrefused,
    hestimate sampleEstimate none estimateHosted_sample rfl (fun event hevent => ?_)
      fun maxIterations hlimit => ?_⟩
  · obtain rfl := List.mem_singleton.mp hevent
    exact Nat.le_max_right _ _
  · obtain rfl := Option.some.inj hlimit
    exact le_rfl

end HostedBudgetRunner

end CorpusKit.ModelRuntime
