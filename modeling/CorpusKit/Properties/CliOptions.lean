import CorpusKit.Library.Options
import CorpusKit.Services.CliParity

/-! # Evaluate vectors read by the command

The vector of an evaluate request puts sentences before its options, without a
separator. The command reads back the request's settings exactly when no sentence
looks like an option. -/

namespace CorpusKit.Cli

open Options

/-- The options of `corpusgen evaluate` that take a value; what else it declares is
left open. -/
def evaluateOptions : List String :=
  ["--file", "--language", "--target", "--unit", "--format", "--verbosity"]

/-- A grammar of `corpusgen evaluate`. -/
def IsEvaluateGrammar (grammar : Grammar) : Prop :=
  ∀ name ∈ evaluateOptions, grammar.long name.toList = some .value

/-- The program and its commands take no options before the command's name. -/
def readEvaluate (grammar : Grammar) : Arguments → Option Parsed
  | program :: workflow :: arguments =>
    if program = "corpusgen".toList ∧ workflow = "evaluate".toList then parse grammar arguments
    else none
  | _ => none

def setting (name value : String) : Entry := (name.toList, some value.toList)

def optionSettings (r : CliEvaluateRequest) : List Entry :=
  setting "--language" r.language ::
    (if r.target = .phoible then [setting "--target" "phoible"] else []) ++
    [setting "--unit" r.unit.value, setting "--format" r.outputFormat.value,
      setting "--verbosity" r.verbosity.value]

/-- The request's settings: its path or its sentences, and an entry for each option. -/
def evaluateSettings (r : CliEvaluateRequest) : Parsed :=
  match r.filePath with
  | some path => ⟨setting "--file" path :: optionSettings r, []⟩
  | none => ⟨optionSettings r, r.sentences.map String.toList⟩

/-- The arguments after the texts. -/
def evaluateTail (r : CliEvaluateRequest) : Arguments :=
  option "--language" r.language ++
    (if r.target = .phoible then option "--target" "phoible" else []) ++
    option "--unit" r.unit.value ++ option "--format" r.outputFormat.value ++
    option "--verbosity" r.verbosity.value

theorem evaluate_eq (r : CliEvaluateRequest) : evaluate r =
    "corpusgen".toList :: "evaluate".toList :: (evaluateTexts r ++ evaluateTail r) := by
  simp only [evaluate, evaluateTail, List.append_assoc, List.cons_append, List.nil_append]

variable {grammar : Grammar}

theorem parse_option (hgrammar : IsEvaluateGrammar grammar) {name : String}
    (hname : name ∈ evaluateOptions) (value : String) (rest : Arguments) :
    parse grammar (option name value ++ rest) =
      (parse grammar rest).map (Parsed.enter [setting name value]) := by
  have hshape : isOptionLike name.toList = true ∧ name.toList ≠ separator ∧ '=' ∉ name.toList := by
    revert name
    decide
  exact parse_value (hgrammar name hname) hshape.1 hshape.2.1 hshape.2.2 value.toList rest

theorem parse_tail (hgrammar : IsEvaluateGrammar grammar) (r : CliEvaluateRequest) :
    parse grammar (evaluateTail r) = some ⟨optionSettings r, []⟩ := by
  have hend : parse grammar (option "--unit" r.unit.value ++
      (option "--format" r.outputFormat.value ++ (option "--verbosity" r.verbosity.value ++ []))) =
      some ⟨[setting "--unit" r.unit.value, setting "--format" r.outputFormat.value,
        setting "--verbosity" r.verbosity.value], []⟩ := by
    rw [parse_option hgrammar (by decide), parse_option hgrammar (by decide),
      parse_option hgrammar (by decide)]
    rfl
  rw [List.append_nil] at hend
  simp only [evaluateTail, List.append_assoc]
  rw [parse_option hgrammar (by decide), optionSettings]
  split
  · rw [parse_option hgrammar (by decide), hend]
    rfl
  · rw [List.nil_append, hend]
    rfl

theorem language_ne_separator {language : String} (h : validLanguage language = true) :
    language.toList ≠ separator := by
  intro heq
  have := (Bool.and_eq_true_iff.mp h).2
  rw [heq] at this
  exact absurd this (by decide)

theorem separator_not_mem_tail {r : CliEvaluateRequest} (h : r.valid = true) :
    separator ∉ evaluateTail r := by
  have hlanguage : r.language.toList ≠ separator := by
    refine language_ne_separator ?_
    simp only [CliEvaluateRequest.valid, Bool.and_eq_true] at h
    exact h.1.1.1.1
  have hunit : r.unit.value.toList ≠ separator := by
    cases r.unit <;> decide
  have hformat : r.outputFormat.value.toList ≠ separator := by
    cases r.outputFormat <;> decide
  have hverbosity : r.verbosity.value.toList ≠ separator := by
    cases r.verbosity <;> decide
  have htarget : separator ∉ (if r.target = .phoible then option "--target" "phoible" else []) := by
    split <;> decide
  simp only [evaluateTail, List.mem_append, option, List.mem_cons, List.not_mem_nil, or_false,
    not_or]
  refine ⟨⟨⟨⟨⟨?_, hlanguage.symm⟩, htarget⟩, ?_, hunit.symm⟩, ?_, hformat.symm⟩, ?_,
    hverbosity.symm⟩ <;> decide

/-- The command reads the vector as the request's settings exactly when no sentence
looks like an option. -/
theorem evaluate_read_back (hgrammar : IsEvaluateGrammar grammar) {r : CliEvaluateRequest}
    (h : r.valid = true) :
    readEvaluate grammar (argv (.evaluate r)) = some (evaluateSettings r) ↔
      ∀ sentence ∈ r.sentences, isOptionLike sentence.toList = false := by
  have hread : readEvaluate grammar (argv (.evaluate r)) =
      parse grammar (evaluateTexts r ++ evaluateTail r) := by
    rw [argv, evaluate_eq]
    rfl
  have hexclusive : (r.sentences.isEmpty != r.filePath.isNone) = true := by
    simp only [CliEvaluateRequest.valid, Bool.and_eq_true] at h
    exact h.1.1.2
  rw [hread, evaluateTexts, evaluateSettings]
  cases hpath : r.filePath with
  | some path =>
    have hempty : r.sentences = [] := by
      rw [hpath] at hexclusive
      simpa using hexclusive
    show parse grammar (option "--file" path ++ evaluateTail r) = _ ↔ _
    rw [parse_option hgrammar (by decide), parse_tail hgrammar, hempty]
    exact ⟨fun _ sentence hmem => absurd hmem List.not_mem_nil, fun _ => rfl⟩
  | none =>
    show parse grammar (r.sentences.map String.toList ++ evaluateTail r) =
      some ⟨optionSettings r, r.sentences.map String.toList⟩ ↔ _
    rw [positionals_iff (parse_tail hgrammar r) (separator_not_mem_tail h)]
    simp only [List.forall_mem_map]

/-- The options of the vector and no others. -/
def smallGrammar : Grammar where
  long := fun name => if (evaluateOptions.map String.toList).contains name then some .value else none
  short := fun _ => none

theorem smallGrammar_evaluate : IsEvaluateGrammar smallGrammar := by
  unfold IsEvaluateGrammar
  decide

def smallDashed : CliEvaluateRequest := { language := "en-us", sentences := ["-5 degrees outside"] }

theorem sentence_read_as_option : smallDashed.valid = true ∧
    readEvaluate smallGrammar (argv (.evaluate smallDashed)) = none := by
  constructor <;> decide +kernel

/-- Sentences with a lone dash, quotes and an equals sign, and every option set. -/
def smallPlain : CliEvaluateRequest :=
  { language := "fr-fr", sentences := ["-", "it's 5 - 3 = 2", "say \"oui\""], target := .phoible,
    unit := .triphone, outputFormat := .jsonLd, verbosity := .verbose }

theorem evaluate_read_back_plain :
    readEvaluate smallGrammar (argv (.evaluate smallPlain)) = some (evaluateSettings smallPlain) :=
  (evaluate_read_back smallGrammar_evaluate (by decide +kernel)).mpr (by decide +kernel)

end CorpusKit.Cli
