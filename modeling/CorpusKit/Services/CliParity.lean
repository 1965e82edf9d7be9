import CorpusKit.Domain.CliParity
import CorpusKit.Library.Shell

/-! # Command-line previews

The arguments of a command for each kind of request, the command for two shells,
and the model the preview must satisfy. -/

namespace CorpusKit.Cli

/-- `CliCommandPreview`; the environment is always UTF-8 mode. -/
structure CliCommandPreview where
  argv : List (List Char)
  posixCommand : List Char
  powershellCommand : List Char
  reproducibility : CliReproducibility
  warnings : List String

def maxArguments : Nat := 256
def maxCommand : Nat := 65536

/-- The field constraints of the preview. -/
structure CliCommandPreview.Valid (preview : CliCommandPreview) : Prop where
  arguments : 2 ≤ preview.argv.length ∧ preview.argv.length ≤ maxArguments
  posix : 1 ≤ preview.posixCommand.length ∧ preview.posixCommand.length ≤ maxCommand
  powershell : 1 ≤ preview.powershellCommand.length ∧ preview.powershellCommand.length ≤ maxCommand

/-! ## Arguments -/

abbrev Arguments := List (List Char)

/-- An option and its value. -/
def option (name value : String) : Arguments := [name.toList, value.toList]

/-- An option whose value is not a string of the request. -/
def optionText (name : String) (value : List Char) : Arguments := [name.toList, value]

def optional {α : Type} (value : Option α) (arguments : α → Arguments) : Arguments :=
  match value with
  | none => []
  | some value => arguments value

/-- `str` of a number. -/
def str (n : Nat) : List Char := Nat.toDigits 10 n

def FloatValue.str (number : FloatValue) : List Char := number.text.chars

def utf8Warning : String :=
  "The preview enables Python UTF-8 mode because IPA output may not be representable " ++
  "by a platform's legacy console encoding."

def inventory (r : CliInventoryRequest) : Arguments :=
  ["corpusgen".toList, "inventory".toList] ++ option "--language" r.language ++
    option "--format" r.outputFormat.value ++ optional r.source (option "--source")

def evaluateTexts (r : CliEvaluateRequest) : Arguments :=
  match r.filePath with
  | some path => option "--file" path
  | none => r.sentences.map String.toList

def evaluate (r : CliEvaluateRequest) : Arguments :=
  ["corpusgen".toList, "evaluate".toList] ++ evaluateTexts r ++ option "--language" r.language ++
    (if r.target = .phoible then option "--target" "phoible" else []) ++
    option "--unit" r.unit.value ++ option "--format" r.outputFormat.value ++
    option "--verbosity" r.verbosity.value

/-- The distribution's JSON object with its keys sorted. -/
def distributionJson (distribution : List UnitWeight) : List Char :=
  Json.dumps (.obj (distribution.map fun item => (item.unit.toList, .float item.weight.text)))

def select (r : CliSelectRequest) : Arguments :=
  ["corpusgen".toList, "select".toList] ++ option "--file" r.filePath ++
    option "--language" r.language ++ option "--unit" r.unit.value ++
    option "--algorithm" r.algorithm.value ++
    optionText "--target-coverage" r.targetCoverage.str ++
    option "--format" r.outputFormat.value ++
    (if r.target = .phoible then option "--target" "phoible" else []) ++
    (if r.targetDistribution = [] then []
      else optionText "--target-distribution" (distributionJson r.targetDistribution)) ++
    optional r.maxSentences (fun n => optionText "--max-sentences" (str n)) ++
    optional r.outputPath (option "--output")

/-- `_append_generation_source`. -/
def generationSource (r : CliGenerateRequest) : Arguments :=
  optional r.filePath (option "--file") ++
    optional r.dataset (fun dataset =>
      option "--dataset" dataset ++ option "--text-column" r.textColumn ++
        optional r.split (option "--split") ++
        optional r.maxSamples fun n => optionText "--max-samples" (str n)) ++
    optional r.model (option "--model")

/-- `_append_backend_options`. -/
def backendOptions (r : CliGenerateRequest) : Arguments :=
  (match r.backend with
    | .llmApi => optionText "--llm-temperature" r.llmTemperature.str ++
        optionText "--llm-max-tokens" (str r.llmMaxTokens)
    | .local => optionText "--local-temperature" r.localTemperature.str ++
        optionText "--local-max-tokens" (str r.localMaxTokens) ++
        option "--device" r.device.value ++ option "--quantization" r.quantization.value
    | .repository => []) ++
    optional r.promptTemplate (option "--prompt-template")

/-- `_append_guidance_options`. -/
def guidanceOptions (r : CliGenerateRequest) : Arguments :=
  option "--guidance" r.guidance.value ++
    optional r.guidanceConfigPath (option "--guidance-config") ++
    (if r.guidance = .datg ∧ r.guidanceConfigPath = none then
      optionText "--datg-boost" r.datgBoost.str ++ optionText "--datg-penalty" r.datgPenalty.str ++
        option "--datg-anti-mode" r.datgAntiMode.value ++
        optionText "--datg-freq-threshold" (str r.datgFrequencyThreshold) ++
        optionText "--datg-batch-size" (str r.datgBatchSize)
      else []) ++
    optional r.rlAdapterPath (option "--rl-adapter-path")

/-- `_append_scorer_options`. -/
def scorerOptions (r : CliGenerateRequest) : Arguments :=
  optionText "--coverage-weight" r.coverageWeight.str ++
    optionText "--phonotactic-weight" r.phonotacticWeight.str ++
    option "--phonotactic-scorer" r.phonotacticScorer.value ++
    optionText "--phonotactic-n" (str r.phonotacticN) ++
    optionText "--fluency-weight" r.fluencyWeight.str ++
    option "--fluency-scorer" r.fluencyScorer.value ++
    option "--fluency-device" r.fluencyDevice.value ++
    optional r.phonotacticCorpusPath (option "--phonotactic-corpus") ++
    optional r.fluencyModel (option "--fluency-model")

def phonemeList (phonemes : List String) : List Char := Words.join ',' (phonemes.map String.toList)

def weightList (weights : List UnitWeight) : List Char :=
  Words.join ',' (weights.map fun item => item.unit.toList ++ ':' :: item.weight.str)

def generate (r : CliGenerateRequest) : Arguments :=
  ["corpusgen".toList, "generate".toList] ++ option "--backend" r.backend.value ++
    option "--language" r.language ++ generationSource r ++ option "--target" r.targetSource ++
    (if r.phonemes = [] then [] else optionText "--phonemes" (phonemeList r.phonemes)) ++
    (if r.weights = [] then [] else optionText "--weights" (weightList r.weights)) ++
    option "--unit" r.unit.value ++ optionText "--target-coverage" r.targetCoverage.str ++
    optionText "--candidates" (str r.candidatesPerIteration) ++
    optional r.maxSentences (fun n => optionText "--max-sentences" (str n)) ++
    optional r.maxIterations (fun n => optionText "--max-iterations" (str n)) ++
    optional r.timeoutSeconds (fun t => optionText "--timeout" t.str) ++
    backendOptions r ++ guidanceOptions r ++ scorerOptions r ++
    option "--format" r.outputFormat.value ++ optional r.outputPath (option "--output")

def argv : CliPreviewRequest → Arguments
  | .inventory r => inventory r
  | .evaluate r => evaluate r
  | .select r => select r
  | .generate r => generate r

/-! ## Reproducibility and warnings -/

def reproducibility : CliPreviewRequest → CliReproducibility
  | .inventory _ | .evaluate _ => .exactInputsRequired
  | .select r =>
    if r.algorithm = .stochastic ∨ r.algorithm = .nsga2 then .bestEffort else .exactInputsRequired
  | .generate r =>
    match r.backend with
    | .llmApi => .externalDependency
    | .local => .bestEffort
    | .repository => .exactInputsRequired

def generateWarnings (r : CliGenerateRequest) : List String :=
  ["Generation always resolves a PHOIBLE baseline; --phonemes adds symbols rather " ++
      "than replacing that inventory.",
    "The CLI does not expose CorpusKit's durable execution, immutable artifact, " ++
      "tenant, quota, or provider-confirmation controls.",
    "The CLI JSON omits provider and model identity, per-candidate phonemes, source " ++
      "IDs, coverage gains, usage, and execution manifests; only accepted text and " ++
      "aggregate loop metrics can be compared.",
    "The CLI does not expose CorpusKit's readability scorer or readability filter."] ++
  (if r.dataset.isSome then
    ["The CorpusGen CLI cannot pin a dataset config or commit revision; use the " ++
      "CorpusKit repository worker for reproducible remote imports."] else []) ++
  match r.backend with
  | .llmApi =>
    ["Provider credentials must come from the caller's environment and are never " ++
        "included in a preview. External provider output is not reproducible.",
      "The CLI infers a provider only from the model namespace and does not expose " ++
        "CorpusKit's separate provider allowlist, connection identity, request pacing, " ++
        "retry, budget, or usage controls."]
  | .local =>
    ["The CLI accepts a mutable model identifier or path and does not expose " ++
      "CorpusKit's verified offline revision and snapshot digest. It also has no " ++
      "seed, top-p, or sampling-mode flags; output is best-effort reproducible."]
  | .repository => []

def warnings : CliPreviewRequest → List String
  | .inventory _ =>
    ["The result depends on the installed, checksum-verified PHOIBLE snapshot."]
  | .evaluate _ =>
    ["Derived targets come from the supplied corpus; PHOIBLE targets also depend " ++
        "on the installed snapshot.",
      "The CLI does not accept an arbitrary explicit target list; use the CorpusKit " ++
        "evaluation API for that workflow."]
  | .select _ =>
    ["The CLI omits API-only controls such as stochastic seeds, ILP timeouts, " ++
      "NSGA-II population settings, and general unit weights."]
  | .generate r => generateWarnings r

/-! ## The preview -/

def posixPrefix : String := "PYTHONUTF8=1 "
def powershellPrefix : String := "$env:PYTHONUTF8 = '1'; & "

/-- The values `preview` gives its model. -/
def preview (request : CliPreviewRequest) : CliCommandPreview where
  argv := argv request
  posixCommand := posixPrefix.toList ++ Shell.command Shell.posixQuote (argv request)
  powershellCommand := powershellPrefix.toList ++ Shell.command Shell.powershellQuote (argv request)
  reproducibility := reproducibility request
  warnings := utf8Warning :: warnings request

end CorpusKit.Cli
