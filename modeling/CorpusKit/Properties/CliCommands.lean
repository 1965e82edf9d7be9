import CorpusKit.Library.ShellWords
import CorpusKit.Services.CliParity

/-! # Commands read back by the shells

A POSIX shell reads every preview as its argument vector. PowerShell also takes the
quotation marks U+2018 to U+201B for single quotes: it reads the vector exactly when
no argument has one of them. -/

namespace CorpusKit.Cli

/-- What a preview's command is to do: the UTF-8 mode, and the vector. -/
def intended (request : CliPreviewRequest) : Shell.Simple :=
  ⟨[("PYTHONUTF8".toList, ['1'])], argv request⟩

theorem head_append {word : List Char} {arguments : Arguments}
    (h : ∃ rest, arguments = word :: rest) (more : Arguments) :
    ∃ rest, arguments ++ more = word :: rest := by
  obtain ⟨rest, rfl⟩ := h
  exact ⟨rest ++ more, List.cons_append⟩

theorem argv_head (request : CliPreviewRequest) :
    ∃ rest, argv request = "corpusgen".toList :: rest := by
  -- `delta`, since the equation of `generate` is slow to build
  cases request <;>
    rw [argv] <;>
    delta inventory evaluate select generate <;>
    repeat refine head_append ?_ _
  all_goals exact ⟨_, rfl⟩

theorem posix_parse (request : CliPreviewRequest) :
    Shell.Posix.parse (preview request).posixCommand = some (intended request) := by
  obtain ⟨rest, hargv⟩ := argv_head request
  have hquote : Shell.posixQuote "PYTHONUTF8=1".toList = "PYTHONUTF8=1".toList := by decide
  have hcommand : (preview request).posixCommand =
      Shell.command Shell.posixQuote ("PYTHONUTF8=1".toList :: argv request) := by
    rw [preview, hargv]
    show posixPrefix.toList ++ _ = Shell.posixQuote "PYTHONUTF8=1".toList ++ ' ' :: _
    rw [hquote]
    rfl
  have hassigned : Shell.Posix.assignment (Shell.Posix.word "PYTHONUTF8=1".toList) =
      some ("PYTHONUTF8".toList, ['1']) := by decide
  have hname : Shell.Posix.assignment (Shell.Posix.word "corpusgen".toList) = none := by decide
  rw [Shell.Posix.parse, hcommand, Shell.Posix.words_command, hargv, Option.map_some,
    List.map_cons, List.map_cons, Shell.Posix.simple, hassigned, Shell.Posix.simple, hname]
  rw [intended, hargv, ← List.map_cons, List.map_map]
  have htext : (fun argument => Shell.Posix.Word.text (Shell.Posix.word argument)) = id :=
    funext Shell.Posix.text_word
  simp [Function.comp_def, htext]

theorem powershell_tokens (text : List Char) :
    Shell.Powershell.tokens .between (powershellPrefix.toList ++ text) =
      (Shell.Powershell.tokens .between text).map fun rest =>
        .reference "env:PYTHONUTF8".toList :: .equals :: .string ['1'] :: .semicolon :: .call ::
          rest := by
  have hsteps : Shell.Powershell.tokens .between (powershellPrefix.toList ++ text) =
      ((((Shell.Powershell.tokens .between text).map (.call :: ·)).map fun rest =>
        .string ['1'] :: .semicolon :: rest).map (.equals :: ·)).map
          (.reference "env:PYTHONUTF8".toList :: ·) := rfl
  rw [hsteps, Option.map_map, Option.map_map, Option.map_map]
  rfl

theorem powershell_parse_iff (request : CliPreviewRequest) :
    Shell.Powershell.parse (preview request).powershellCommand = some (intended request) ↔
      ∀ argument ∈ argv request, Shell.Powershell.isPlain argument = true := by
  obtain ⟨rest, hargv⟩ := argv_head request
  have hne : argv request ≠ [] := by
    rw [hargv]
    exact List.cons_ne_nil _ _
  rw [← Shell.Powershell.tokens_command_iff hne, Shell.Powershell.parse, preview, powershell_tokens]
  constructor
  · intro h
    cases hfound : Shell.Powershell.tokens .between
        (Shell.command Shell.powershellQuote (argv request)) with
    | none =>
      rw [hfound] at h
      cases h
    | some found =>
      rw [hfound, Option.map_some] at h
      simp only [show "env:".toList.isPrefixOf "env:PYTHONUTF8".toList = true from rfl, if_true] at h
      obtain ⟨arguments, harguments, heq⟩ := Option.map_eq_some_iff.mp h
      have hsame : arguments = argv request := congrArg Shell.Simple.arguments heq
      rw [Shell.Powershell.mapM_value_eq harguments, hsame]
  · intro h
    rw [h, Option.map_some]
    simp only [show "env:".toList.isPrefixOf "env:PYTHONUTF8".toList = true from rfl, if_true,
      Shell.Powershell.mapM_value, Option.map_some]
    rfl

/-- The commands of a preview mean its argument vector. -/
theorem commands_read_back (request : CliPreviewRequest) :
    Shell.Posix.parse (preview request).posixCommand = some (intended request) ∧
    (Shell.Powershell.parse (preview request).powershellCommand = some (intended request) ↔
      ∀ argument ∈ argv request, Shell.Powershell.isPlain argument = true) :=
  ⟨posix_parse request, powershell_parse_iff request⟩

/-- A sentence with a typographic apostrophe. -/
def smallEvaluation : CliPreviewRequest := .evaluate { language := "en-us", sentences := ["it’s"] }

theorem powershell_command_differs : smallEvaluation.valid = true ∧
    Shell.Powershell.parse (preview smallEvaluation).powershellCommand ≠
      some (intended smallEvaluation) := by
  refine ⟨by decide +kernel, ?_⟩
  rw [ne_eq, powershell_parse_iff]
  intro h
  exact absurd (h "it’s".toList (by simp [smallEvaluation, argv, evaluate, evaluateTexts]))
    (by decide)

end CorpusKit.Cli
