import CorpusKit.Services.CliParity

/-! # Previews that fit their model

The room a command takes is told from the fields of its request. A preview
satisfies its model exactly when this room is within the limit for both shells:
the number of arguments never is the obstacle. -/

namespace CorpusKit.Cli

/-! ## The number of arguments -/

section Room

variable (cost : List Char → Nat)

/-- An option and its value, each with its separator. -/
def optionRoom (name : String) (value : List Char) : Nat := cost name.toList + cost value + 2

def optionalRoom {α : Type} (name : String) (value : Option α) (text : α → List Char) : Nat :=
  match value with
  | none => 0
  | some a => optionRoom cost name (text a)

def commandRoom (workflow : String) : Nat := cost "corpusgen".toList + cost workflow.toList + 2

def CliInventoryRequest.room (r : CliInventoryRequest) : Nat :=
  commandRoom cost "inventory" + optionRoom cost "--language" r.language.toList +
    optionRoom cost "--format" r.outputFormat.value.toList +
    optionalRoom cost "--source" r.source String.toList

/-- The file, or the sentences one after the other. -/
def CliEvaluateRequest.textRoom (r : CliEvaluateRequest) : Nat :=
  match r.filePath with
  | some path => optionRoom cost "--file" path.toList
  | none => (r.sentences.map fun sentence => cost sentence.toList + 1).sum

def targetRoom (target : CliTargetMode) : Nat :=
  if target = .phoible then optionRoom cost "--target" "phoible".toList else 0

def CliEvaluateRequest.room (r : CliEvaluateRequest) : Nat :=
  commandRoom cost "evaluate" + r.textRoom cost + optionRoom cost "--language" r.language.toList +
    targetRoom cost r.target + optionRoom cost "--unit" r.unit.value.toList +
    optionRoom cost "--format" r.outputFormat.value.toList +
    optionRoom cost "--verbosity" r.verbosity.value.toList

def CliSelectRequest.room (r : CliSelectRequest) : Nat :=
  commandRoom cost "select" + optionRoom cost "--file" r.filePath.toList +
    optionRoom cost "--language" r.language.toList + optionRoom cost "--unit" r.unit.value.toList +
    optionRoom cost "--algorithm" r.algorithm.value.toList +
    optionRoom cost "--target-coverage" r.targetCoverage.str +
    optionRoom cost "--format" r.outputFormat.value.toList + targetRoom cost r.target +
    (if r.targetDistribution = [] then 0
      else optionRoom cost "--target-distribution" (distributionJson r.targetDistribution)) +
    optionalRoom cost "--max-sentences" r.maxSentences str +
    optionalRoom cost "--output" r.outputPath String.toList

namespace CliGenerateRequest

variable (r : CliGenerateRequest)

def datasetRoom : Nat :=
  match r.dataset with
  | none => 0
  | some dataset =>
    optionRoom cost "--dataset" dataset.toList + optionRoom cost "--text-column" r.textColumn.toList +
      optionalRoom cost "--split" r.split String.toList +
      optionalRoom cost "--max-samples" r.maxSamples str

def backendRoom : Nat :=
  match r.backend with
  | .llmApi => optionRoom cost "--llm-temperature" r.llmTemperature.str +
      optionRoom cost "--llm-max-tokens" (str r.llmMaxTokens)
  | .local => optionRoom cost "--local-temperature" r.localTemperature.str +
      optionRoom cost "--local-max-tokens" (str r.localMaxTokens) +
      optionRoom cost "--device" r.device.value.toList +
      optionRoom cost "--quantization" r.quantization.value.toList
  | .repository => 0

def datgRoom : Nat :=
  if r.guidance = .datg ∧ r.guidanceConfigPath = none then
    optionRoom cost "--datg-boost" r.datgBoost.str +
      optionRoom cost "--datg-penalty" r.datgPenalty.str +
      optionRoom cost "--datg-anti-mode" r.datgAntiMode.value.toList +
      optionRoom cost "--datg-freq-threshold" (str r.datgFrequencyThreshold) +
      optionRoom cost "--datg-batch-size" (str r.datgBatchSize)
  else 0

def scorerRoom : Nat :=
  optionRoom cost "--coverage-weight" r.coverageWeight.str +
    optionRoom cost "--phonotactic-weight" r.phonotacticWeight.str +
    optionRoom cost "--phonotactic-scorer" r.phonotacticScorer.value.toList +
    optionRoom cost "--phonotactic-n" (str r.phonotacticN) +
    optionRoom cost "--fluency-weight" r.fluencyWeight.str +
    optionRoom cost "--fluency-scorer" r.fluencyScorer.value.toList +
    optionRoom cost "--fluency-device" r.fluencyDevice.value.toList +
    optionalRoom cost "--phonotactic-corpus" r.phonotacticCorpusPath String.toList +
    optionalRoom cost "--fluency-model" r.fluencyModel String.toList

def room : Nat :=
  commandRoom cost "generate" + optionRoom cost "--backend" r.backend.value.toList +
    optionRoom cost "--language" r.language.toList +
    (optionalRoom cost "--file" r.filePath String.toList + r.datasetRoom cost +
      optionalRoom cost "--model" r.model String.toList) +
    optionRoom cost "--target" r.targetSource.toList +
    (if r.phonemes = [] then 0 else optionRoom cost "--phonemes" (phonemeList r.phonemes)) +
    (if r.weights = [] then 0 else optionRoom cost "--weights" (weightList r.weights)) +
    optionRoom cost "--unit" r.unit.value.toList +
    optionRoom cost "--target-coverage" r.targetCoverage.str +
    optionRoom cost "--candidates" (str r.candidatesPerIteration) +
    optionalRoom cost "--max-sentences" r.maxSentences str +
    optionalRoom cost "--max-iterations" r.maxIterations str +
    optionalRoom cost "--timeout" r.timeoutSeconds FloatValue.str +
    (r.backendRoom cost + optionalRoom cost "--prompt-template" r.promptTemplate String.toList) +
    (optionRoom cost "--guidance" r.guidance.value.toList +
      optionalRoom cost "--guidance-config" r.guidanceConfigPath String.toList + r.datgRoom cost +
      optionalRoom cost "--rl-adapter-path" r.rlAdapterPath String.toList) +
    r.scorerRoom cost + optionRoom cost "--format" r.outputFormat.value.toList +
    optionalRoom cost "--output" r.outputPath String.toList

end CliGenerateRequest

/-- The room of the command of a request, at the given cost of an argument. -/
def CliPreviewRequest.room : CliPreviewRequest → Nat
  | .inventory r => r.room cost
  | .evaluate r => r.room cost
  | .select r => r.room cost
  | .generate r => r.room cost

end Room

/-- The room both shells leave for a command after the assignment before it. -/
def CliPreviewRequest.Fits (request : CliPreviewRequest) : Prop :=
  request.room Shell.posixCost ≤ 65524 ∧ request.room Shell.powershellCost ≤ 65512

end CorpusKit.Cli
