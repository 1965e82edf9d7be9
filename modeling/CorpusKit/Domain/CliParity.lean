import CorpusKit.Domain.Corpora
import Mathlib.Data.List.Infix

/-! # Contracts of command-line previews

The requests a preview is built from, with the validators of their models. A
float is its value with the text `repr` writes for it. -/

namespace CorpusKit.Cli

structure FloatValue where
  value : Rat
  text : Json.FloatText

namespace FloatValue

/-- The floats the defaults are. -/
def zero : FloatValue := ⟨0, ['0', '.', '0'], by simp [Char.isDigit], by decide, _, _, rfl, by decide⟩
def one : FloatValue := ⟨1, ['1', '.', '0'], by simp [Char.isDigit], by decide, _, _, rfl, by decide⟩
def fourFifths : FloatValue := ⟨4 / 5, ['0', '.', '8'], by simp [Char.isDigit], by decide, _, _, rfl, by decide⟩
def five : FloatValue := ⟨5, ['5', '.', '0'], by simp [Char.isDigit], by decide, _, _, rfl, by decide⟩
def minusFive : FloatValue :=
  ⟨-5, ['-', '5', '.', '0'], by simp [Char.isDigit], by decide, _, _, rfl, by decide⟩
def threeHundred : FloatValue :=
  ⟨300, ['3', '0', '0', '.', '0'], by simp [Char.isDigit], by decide, _, _, rfl, by decide⟩

end FloatValue

def maxCliSentences : Nat := 100
def maxCliTextCharacters : Nat := 4000
def maxCliPathCharacters : Nat := 512
def maxCliPromptCharacters : Nat := 4096

/-! ## Identifiers -/

def isAlphanumeric (c : Char) : Bool := c.isAlpha || c.isDigit

/-- `_LANGUAGE`. -/
def isLanguage (value : List Char) : Bool :=
  match value.splitOn '-' with
  | [] => false
  | head :: parts =>
    decide (2 ≤ head.length ∧ head.length ≤ 3) && head.all Char.isAlpha &&
      parts.all fun part => decide (1 ≤ part.length ∧ part.length ≤ 8) && part.all isAlphanumeric

def isIdentifier (punctuation : List Char) (maximum : Nat) (value : List Char) : Bool :=
  match value with
  | [] => false
  | head :: rest =>
    isAlphanumeric head && decide (rest.length ≤ maximum) &&
      rest.all fun c => isAlphanumeric c || punctuation.contains c

/-- `_SAFE_IDENTIFIER`. -/
def isSafeIdentifier (value : String) : Bool := isIdentifier ['.', '_', '/', '-'] 191 value.toList

/-- `_SAFE_SOURCE`. -/
def isSafeSource (value : String) : Bool := isIdentifier ['.', '_', '-'] 63 value.toList

def nul : Char := Char.ofNat 0

/-- None of the characters occurs in the text. -/
def free (characters : List Char) (value : String) : Bool :=
  characters.all fun c => !value.toList.contains c

def bounded (minimum maximum : Nat) (value : String) : Bool :=
  decide (minimum ≤ value.length ∧ value.length ≤ maximum)

def validLanguage (language : String) : Bool := bounded 2 32 language && isLanguage language.toList

/-- `_validate_path`, after the length check of the field. -/
def validPath (path : String) : Bool :=
  bounded 1 maxCliPathCharacters path && decide (strip path.toList = path.toList) &&
    free [nul, '\r', '\n'] path

def validSentence (sentence : String) : Bool :=
  !(strip sentence.toList).isEmpty && decide (sentence.length ≤ maxCliTextCharacters) &&
    free [nul] sentence

def inRange (minimum maximum : Rat) (number : FloatValue) : Bool :=
  decide (minimum ≤ number.value ∧ number.value ≤ maximum)

def positive (maximum : Rat) (number : FloatValue) : Bool :=
  decide (0 < number.value ∧ number.value ≤ maximum)

def between (minimum maximum n : Nat) : Bool := decide (minimum ≤ n ∧ n ≤ maximum)

/-! ## Options -/

inductive CliReproducibility
  | exactInputsRequired
  | bestEffort
  | externalDependency
  deriving DecidableEq, Repr

inductive CliEvaluationFormat
  | text
  | json
  | jsonLd
  deriving DecidableEq, Repr

def CliEvaluationFormat.value : CliEvaluationFormat → String
  | .text => "text"
  | .json => "json"
  | .jsonLd => "jsonld"

inductive CliBasicFormat
  | text
  | json
  deriving DecidableEq, Repr

def CliBasicFormat.value : CliBasicFormat → String
  | .text => "text"
  | .json => "json"

inductive CliVerbosity
  | minimal
  | normal
  | verbose
  deriving DecidableEq, Repr

def CliVerbosity.value : CliVerbosity → String
  | .minimal => "minimal"
  | .normal => "normal"
  | .verbose => "verbose"

inductive CliTargetMode
  | derived
  | phoible
  deriving DecidableEq, Repr

inductive CoverageUnit
  | phoneme
  | diphone
  | triphone
  deriving DecidableEq, Repr

def CoverageUnit.value : CoverageUnit → String
  | .phoneme => "phoneme"
  | .diphone => "diphone"
  | .triphone => "triphone"

inductive SelectionAlgorithm
  | greedy
  | celf
  | stochastic
  | distribution
  | ilp
  | nsga2
  deriving DecidableEq, Repr

def SelectionAlgorithm.value : SelectionAlgorithm → String
  | .greedy => "greedy"
  | .celf => "celf"
  | .stochastic => "stochastic"
  | .distribution => "distribution"
  | .ilp => "ilp"
  | .nsga2 => "nsga2"

inductive CliGenerationBackend
  | repository
  | llmApi
  | «local»
  deriving DecidableEq, Repr

def CliGenerationBackend.value : CliGenerationBackend → String
  | .repository => "repository"
  | .llmApi => "llm_api"
  | .local => "local"

inductive CliGuidance
  | none
  | datg
  | rl
  deriving DecidableEq, Repr

def CliGuidance.value : CliGuidance → String
  | .none => "none"
  | .datg => "datg"
  | .rl => "rl"

inductive CliDevice
  | auto
  | cpu
  | cuda
  deriving DecidableEq, Repr

def CliDevice.value : CliDevice → String
  | .auto => "auto"
  | .cpu => "cpu"
  | .cuda => "cuda"

inductive CliQuantization
  | none
  | fourBit
  | eightBit
  deriving DecidableEq, Repr

def CliQuantization.value : CliQuantization → String
  | .none => "none"
  | .fourBit => "4bit"
  | .eightBit => "8bit"

inductive CliPhonotacticScorer
  | none
  | ngram
  deriving DecidableEq, Repr

def CliPhonotacticScorer.value : CliPhonotacticScorer → String
  | .none => "none"
  | .ngram => "ngram"

inductive CliFluencyScorer
  | none
  | perplexity
  deriving DecidableEq, Repr

def CliFluencyScorer.value : CliFluencyScorer → String
  | .none => "none"
  | .perplexity => "perplexity"

inductive DatgAntiMode
  | covered
  | frequency
  deriving DecidableEq, Repr

def DatgAntiMode.value : DatgAntiMode → String
  | .covered => "covered"
  | .frequency => "frequency"

/-- `UnitWeight` and `CliWeight`. -/
structure UnitWeight where
  unit : String
  weight : FloatValue

def UnitWeight.valid (item : UnitWeight) : Bool :=
  bounded 1 64 item.unit && positive 1000000 item.weight

/-- `validate_cli_symbol`. -/
def UnitWeight.validCli (item : UnitWeight) : Bool :=
  item.valid && free [',', ':', '\r', '\n', nul] item.unit

/-! ## Requests -/

structure CliInventoryRequest where
  language : String
  source : Option String := none
  outputFormat : CliBasicFormat := .json

def CliInventoryRequest.valid (r : CliInventoryRequest) : Bool :=
  validLanguage r.language && r.source.all fun source => bounded 1 64 source && isSafeSource source

structure CliEvaluateRequest where
  language : String
  sentences : List String := []
  filePath : Option String := none
  target : CliTargetMode := .derived
  unit : CoverageUnit := .phoneme
  outputFormat : CliEvaluationFormat := .json
  verbosity : CliVerbosity := .normal

def CliEvaluateRequest.valid (r : CliEvaluateRequest) : Bool :=
  validLanguage r.language && decide (r.sentences.length ≤ maxCliSentences) &&
    (r.sentences.isEmpty != r.filePath.isNone) && r.sentences.all validSentence &&
    r.filePath.all validPath

structure CliSelectRequest where
  language : String
  filePath : String
  target : CliTargetMode := .derived
  unit : CoverageUnit := .phoneme
  algorithm : SelectionAlgorithm := .greedy
  targetDistribution : List UnitWeight := []
  maxSentences : Option Nat := none
  targetCoverage : FloatValue := .one
  outputFormat : CliBasicFormat := .json
  outputPath : Option String := none

def CliSelectRequest.valid (r : CliSelectRequest) : Bool :=
  validLanguage r.language && validPath r.filePath && r.outputPath.all validPath &&
    decide (r.targetDistribution.length ≤ 10000) && r.targetDistribution.all UnitWeight.valid &&
    r.maxSentences.all (between 1 2000) && inRange 0 1 r.targetCoverage &&
    decide (r.targetDistribution.map UnitWeight.unit).Nodup &&
    (decide (r.algorithm = .distribution) == !r.targetDistribution.isEmpty)

structure CliGenerateRequest where
  backend : CliGenerationBackend
  language : String
  filePath : Option String := none
  dataset : Option String := none
  textColumn : String := "text"
  split : Option String := none
  maxSamples : Option Nat := none
  model : Option String := none
  targetSource : String := "phoible"
  phonemes : List String := []
  weights : List UnitWeight := []
  unit : CoverageUnit := .phoneme
  targetCoverage : FloatValue := .one
  maxSentences : Option Nat := some 50
  maxIterations : Option Nat := some 100
  timeoutSeconds : Option FloatValue := some .threeHundred
  candidatesPerIteration : Nat := 5
  llmTemperature : FloatValue := .fourFifths
  llmMaxTokens : Nat := 1024
  localTemperature : FloatValue := .fourFifths
  localMaxTokens : Nat := 256
  device : CliDevice := .auto
  quantization : CliQuantization := .none
  promptTemplate : Option String := none
  guidance : CliGuidance := .none
  guidanceConfigPath : Option String := none
  datgBoost : FloatValue := .five
  datgPenalty : FloatValue := .minusFive
  datgAntiMode : DatgAntiMode := .covered
  datgFrequencyThreshold : Nat := 10
  datgBatchSize : Nat := 512
  rlAdapterPath : Option String := none
  coverageWeight : FloatValue := .one
  phonotacticWeight : FloatValue := .zero
  phonotacticScorer : CliPhonotacticScorer := .none
  phonotacticCorpusPath : Option String := none
  phonotacticN : Nat := 2
  fluencyWeight : FloatValue := .zero
  fluencyScorer : CliFluencyScorer := .none
  fluencyModel : Option String := none
  fluencyDevice : CliDevice := .auto
  outputFormat : CliBasicFormat := .json
  outputPath : Option String := none

namespace CliGenerateRequest

variable (r : CliGenerateRequest)

/-- The bounds of the fields. -/
def validFields : Bool :=
  r.dataset.all (bounded 1 192) && bounded 1 128 r.textColumn && r.split.all (bounded 1 128) &&
    r.maxSamples.all (between 1 100000) && r.model.all (bounded 1 192) &&
    bounded 1 64 r.targetSource && decide (r.phonemes.length ≤ 64) &&
    decide (r.weights.length ≤ 4096) && r.weights.all UnitWeight.validCli &&
    inRange 0 1 r.targetCoverage && r.maxSentences.all (between 1 10000) &&
    r.maxIterations.all (between 1 10000) && r.timeoutSeconds.all (positive 86400) &&
    between 1 128 r.candidatesPerIteration && inRange 0 2 r.llmTemperature &&
    between 1 131072 r.llmMaxTokens && inRange 0 2 r.localTemperature &&
    between 1 16384 r.localMaxTokens && r.promptTemplate.all (bounded 1 maxCliPromptCharacters) &&
    inRange 0 100 r.datgBoost && inRange (-100) 0 r.datgPenalty &&
    between 0 1000000 r.datgFrequencyThreshold && between 1 8192 r.datgBatchSize &&
    inRange 0 1000 r.coverageWeight && inRange 0 1000 r.phonotacticWeight &&
    between 1 8 r.phonotacticN && inRange 0 1000 r.fluencyWeight &&
    r.fluencyModel.all (bounded 1 192)

/-- `_validate_sources`. -/
def validSources : Bool :=
  (if r.backend = .repository then (r.filePath.isSome != r.dataset.isSome) && r.model.isNone
    else r.model.isSome && r.filePath.isNone && r.dataset.isNone) &&
    r.dataset.all isSafeIdentifier && isSafeIdentifier r.textColumn &&
    r.split.all isSafeIdentifier && r.model.all (free [nul, '\r', '\n']) &&
    r.fluencyModel.all (free [nul, '\r', '\n'])

/-- `_validate_generation_options`. -/
def validGenerationOptions : Bool :=
  (r.maxSentences.isSome || r.maxIterations.isSome || r.timeoutSeconds.isSome) &&
    (decide (r.guidance = .none) || decide (r.backend = .local)) &&
    (decide (r.guidance = .rl) == r.rlAdapterPath.isSome) &&
    (decide (r.quantization = .none) ||
      (decide (r.backend = .local) && decide (r.device = .cuda))) &&
    r.promptTemplate.all (fun template =>
      decide ("\x7btarget_units\x7d".toList <:+: template.toList) &&
        decide (r.backend ≠ .repository) && free [nul] template) &&
    (r.guidanceConfigPath.isNone ||
      (decide (r.backend = .local) && decide (r.guidance ≠ .none))) &&
    (decide (0 < r.phonotacticWeight.value) == decide (r.phonotacticScorer = .ngram)) &&
    (decide (0 < r.fluencyWeight.value) == decide (r.fluencyScorer = .perplexity)) &&
    (r.phonotacticCorpusPath.isNone || decide (r.phonotacticScorer = .ngram)) &&
    (r.fluencyModel.isNone || decide (r.fluencyScorer = .perplexity))

/-- `_validate_paths`. -/
def validPaths : Bool :=
  [r.filePath, r.guidanceConfigPath, r.rlAdapterPath, r.phonotacticCorpusPath, r.outputPath].all
    fun path => path.all validPath

def validPhoneme (phoneme : String) : Bool :=
  !(strip phoneme.toList).isEmpty && decide (phoneme.length ≤ 64) &&
    free [',', '\r', '\n', nul] phoneme

/-- `_validate_symbols`. -/
def validSymbols : Bool :=
  isSafeSource r.targetSource && decide r.phonemes.Nodup && r.phonemes.all validPhoneme &&
    decide (r.weights.map UnitWeight.unit).Nodup

def valid : Bool :=
  validLanguage r.language && r.validFields && r.validSources && r.validGenerationOptions &&
    r.validPaths && r.validSymbols

end CliGenerateRequest

inductive CliPreviewRequest
  | inventory (request : CliInventoryRequest)
  | evaluate (request : CliEvaluateRequest)
  | select (request : CliSelectRequest)
  | generate (request : CliGenerateRequest)

/-- The request passes the validation of its model. -/
def CliPreviewRequest.valid : CliPreviewRequest → Bool
  | .inventory request => request.valid
  | .evaluate request => request.valid
  | .select request => request.valid
  | .generate request => request.valid

end CorpusKit.Cli
