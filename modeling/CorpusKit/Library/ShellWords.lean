import CorpusKit.Library.Shell

/-! # What a shell reads

The words a POSIX shell makes of a simple command, and the tokens PowerShell makes
of a line of single-quoted strings. Both are machines over the text; whatever would
give the text another meaning stops them. -/

namespace Shell

def isBlank (c : Char) : Bool := c = ' ' || c = '\t'

/-- The assignments and the words of a simple command. -/
structure Simple where
  assignments : List (List Char × List Char)
  arguments : List (List Char)
  deriving DecidableEq

/-! ## POSIX -/

namespace Posix

/-- A word, with the characters that were quoted marked. -/
abbrev Word := List (Char × Bool)

def Word.text (word : Word) : List Char := word.map Prod.fst

inductive Mode
  | between
  | bare (word : Word)
  | single (word : Word)
  | double (word : Word)

/-- The words of a line, none where it is not one simple command. Bare characters have
no meaning of their own; between double quotes four characters keep theirs. -/
def words : Mode → List Char → Option (List Word)
  | .between, [] => some []
  | .between, c :: text =>
    if isBlank c then words .between text
    else if c = quoteMark then words (.single []) text
    else if c = '"' then words (.double []) text
    else if isSafe c then words (.bare [(c, false)]) text
    else none
  | .bare word, [] => some [word]
  | .bare word, c :: text =>
    if isBlank c then (words .between text).map (word :: ·)
    else if c = quoteMark then words (.single word) text
    else if c = '"' then words (.double word) text
    else if isSafe c then words (.bare (word ++ [(c, false)])) text
    else none
  | .single _, [] => none
  | .single word, c :: text =>
    if c = quoteMark then words (.bare word) text else words (.single (word ++ [(c, true)])) text
  | .double _, [] => none
  | .double word, c :: text =>
    if c = '"' then words (.bare word) text
    else if c ∈ ['$', Char.ofNat 0x60, '\\', '!'] then none
    else words (.double (word ++ [(c, true)])) text

def isName (name : List Char) : Bool :=
  !name.isEmpty && !name.head?.any Char.isDigit && name.all fun c => c.isAlphanum || c = '_'

/-- The name and the value a word assigns: the name and the sign are bare. -/
def assignment (word : Word) : Option (List Char × List Char) :=
  let name := word.takeWhile fun c => c ≠ ('=', false)
  if isName (Word.text name) && name.all (fun c => !c.2) && decide (name.length < word.length) then
    some (Word.text name, Word.text (word.drop (name.length + 1)))
  else none

/-- The words up to the first that is no assignment are assignments. -/
def simple : List Word → Simple
  | [] => ⟨[], []⟩
  | word :: words =>
    match assignment word with
    | some assigned => { simple words with assignments := assigned :: (simple words).assignments }
    | none => ⟨[], (word :: words).map Word.text⟩

def parse (text : List Char) : Option Simple := (words .between text).map simple

/-! ### Quoted arguments -/

/-- The word of a quoted argument. -/
def word (argument : List Char) : Word :=
  argument.map fun c => (c, !argument.all isSafe)

theorem text_word (argument : List Char) : Word.text (word argument) = argument := by
  simp [Word.text, word, Function.comp_def]

theorem isSafe_plain {c : Char} (h : isSafe c = true) :
    isBlank c = false ∧ c ≠ quoteMark ∧ c ≠ '"' := by
  refine ⟨?_, ?_, ?_⟩
  · rw [isBlank, Bool.or_eq_false_iff, decide_eq_false_iff_not, decide_eq_false_iff_not]
    constructor <;> rintro rfl <;> exact absurd h (by decide)
  · rintro rfl
    exact absurd h (by decide)
  · rintro rfl
    exact absurd h (by decide)

theorem words_bare_safe {argument : List Char} (h : ∀ c ∈ argument, isSafe c = true)
    (rest : List Char) :
    ∀ before, words (.bare before) (argument ++ rest) =
      words (.bare (before ++ argument.map fun c => (c, false))) rest := by
  induction argument with
  | nil =>
    intro before
    rw [List.map_nil, List.append_nil, List.nil_append]
  | cons c argument ih =>
    intro before
    have hsafe := h c List.mem_cons_self
    obtain ⟨hblank, hmark, hdouble⟩ := isSafe_plain hsafe
    rw [List.cons_append, words, if_neg (by rw [hblank]; exact Bool.false_ne_true), if_neg hmark,
      if_neg hdouble, if_pos hsafe, ih fun d hd => h d (List.mem_cons_of_mem c hd)]
    rw [List.append_assoc, List.map_cons, List.singleton_append]

theorem words_single (argument rest : List Char) :
    ∀ before, words (.single before)
        (replaceMarks [quoteMark, '"', quoteMark, '"', quoteMark] argument ++ quoteMark :: rest) =
      words (.bare (before ++ argument.map fun c => (c, true))) rest := by
  induction argument with
  | nil =>
    intro before
    rw [replaceMarks, List.nil_append, words, if_pos rfl, List.map_nil, List.append_nil]
  | cons c argument ih =>
    intro before
    rw [replaceMarks]
    split
    · next hc =>
      subst hc
      -- out of the quotes, a quoted apostrophe, and back
      have hback : ∀ text, words (.single before)
          ([quoteMark, '"', quoteMark, '"', quoteMark] ++ text) =
          words (.single (before ++ [(quoteMark, true)])) text := by
        intro text
        simp [words, isBlank, quoteMark]
      rw [List.append_assoc, hback, ih, List.append_assoc, List.map_cons, List.singleton_append]
    · next hc =>
      rw [List.cons_append, words, if_neg hc, ih, List.append_assoc, List.map_cons,
        List.singleton_append]

theorem words_quote (argument rest : List Char) :
    words .between (posixQuote argument ++ rest) = words (.bare (word argument)) rest := by
  unfold posixQuote
  split
  · next hnil =>
    subst hnil
    simp [words, isBlank, quoteMark, word]
  · next hne =>
    split
    · next hsafe =>
      have hall := List.all_eq_true.mp hsafe
      obtain ⟨c, argument, rfl⟩ := List.exists_cons_of_ne_nil hne
      have hc := hall c List.mem_cons_self
      obtain ⟨hblank, hmark, hdouble⟩ := isSafe_plain hc
      rw [List.cons_append, words, if_neg (by rw [hblank]; exact Bool.false_ne_true), if_neg hmark,
        if_neg hdouble, if_pos hc,
        words_bare_safe fun d hd => hall d (List.mem_cons_of_mem c hd)]
      rw [word, hsafe]
      rfl
    · next hsafe =>
      rw [List.cons_append, List.append_assoc, words, if_neg (by decide), if_pos rfl]
      rw [List.singleton_append, words_single, List.nil_append, word,
        Bool.eq_false_iff.mpr hsafe]
      rfl

/-- A command of quoted arguments is read back as they are. -/
theorem words_command (arguments : List (List Char)) :
    words .between (command posixQuote arguments) = some (arguments.map word) := by
  induction arguments with
  | nil => rfl
  | cons argument arguments ih =>
    cases arguments with
    | nil =>
      have h := words_quote argument []
      rw [List.append_nil] at h
      show words .between (posixQuote argument) = _
      rw [h, words]
      rfl
    | cons next arguments =>
      show words .between (posixQuote argument ++ ' ' :: command posixQuote (next :: arguments)) = _
      rw [words_quote, words, if_pos (by decide), ih]
      rfl

end Posix

/-! ## PowerShell -/

namespace Powershell

/-- The quotation marks that begin, end and escape a single-quoted string. -/
def isSingleQuote (c : Char) : Bool :=
  c = quoteMark || decide (0x2018 ≤ c.toNat ∧ c.toNat ≤ 0x201B)

inductive Token
  | reference (name : List Char)
  | equals
  | semicolon
  | call
  | string (value : List Char)
  deriving DecidableEq

inductive Mode
  | between
  | reference (name : List Char)
  | string (value : List Char)
  /-- After a quotation mark that ends the string unless another follows. -/
  | closed (value : List Char)

/-- The tokens of a line, none where it has others than those listed. -/
def tokens : Mode → List Char → Option (List Token)
  | .between, [] => some []
  | .between, c :: text =>
    if isBlank c then tokens .between text
    else if isSingleQuote c then tokens (.string []) text
    else if c = '$' then tokens (.reference []) text
    else if c = '=' then (tokens .between text).map (.equals :: ·)
    else if c = ';' then (tokens .between text).map (.semicolon :: ·)
    else if c = '&' then (tokens .between text).map (.call :: ·)
    else none
  | .reference name, [] => some [.reference name]
  | .reference name, c :: text =>
    if isBlank c then (tokens .between text).map (.reference name :: ·)
    else if c.isAlphanum || c = '_' || c = ':' then tokens (.reference (name ++ [c])) text
    else none
  | .string _, [] => none
  | .string value, c :: text =>
    if isSingleQuote c then tokens (.closed value) text else tokens (.string (value ++ [c])) text
  | .closed value, [] => some [.string value]
  | .closed value, c :: text =>
    if isSingleQuote c then tokens (.string (value ++ [c])) text
    else if isBlank c then (tokens .between text).map (.string value :: ·)
    else if c = ';' then (tokens .between text).map fun rest => .string value :: .semicolon :: rest
    else none

def Token.value : Token → Option (List Char)
  | .string value => some value
  | _ => none

/-- An assignment to an environment variable and a call. -/
def parse (text : List Char) : Option Simple :=
  match tokens .between text with
  | some (.reference name :: .equals :: .string value :: .semicolon :: .call :: rest) =>
    if "env:".toList.isPrefixOf name then
      (rest.mapM Token.value).map fun arguments => ⟨[(name.drop 4, value)], arguments⟩
    else none
  | _ => none

/-- The marks PowerShell escapes by doubling. -/
def marks (value : List Char) : Nat := value.countP isSingleQuote

/-- No quotation mark but the apostrophe. -/
def isPlain (argument : List Char) : Bool :=
  argument.all fun c => !isSingleQuote c || decide (c = quoteMark)

theorem isPlain_iff (argument : List Char) :
    isPlain argument = true ↔ ∀ c ∈ argument, isSingleQuote c = true → c = quoteMark := by
  simp [isPlain, List.all_eq_true, imp_iff_not_or]

theorem tokens_string {argument : List Char} (h : isPlain argument = true) (rest : List Char) :
    ∀ before, tokens (.string before)
        (replaceMarks [quoteMark, quoteMark] argument ++ quoteMark :: rest) =
      tokens (.closed (before ++ argument)) rest := by
  have hmark : isSingleQuote quoteMark = true := by decide
  rw [isPlain_iff] at h
  induction argument with
  | nil =>
    intro before
    rw [replaceMarks, List.nil_append, tokens, if_pos hmark, List.append_nil]
  | cons c argument ih =>
    intro before
    have hrest := ih fun d hd => h d (List.mem_cons_of_mem c hd)
    rw [replaceMarks]
    split
    · next hc =>
      subst hc
      rw [List.append_assoc, List.cons_append, List.singleton_append, tokens, if_pos hmark, tokens,
        if_pos hmark, hrest, List.append_assoc, List.singleton_append]
    · next hc =>
      have hother : ¬isSingleQuote c = true := fun hq => hc (h c List.mem_cons_self hq)
      rw [List.cons_append, tokens, if_neg hother, hrest, List.append_assoc,
        List.singleton_append]

theorem tokens_quote {argument : List Char} (h : isPlain argument = true) (rest : List Char) :
    tokens .between (powershellQuote argument ++ rest) = tokens (.closed argument) rest := by
  rw [powershellQuote, List.cons_append, List.append_assoc, tokens, if_neg (by decide),
    if_pos (by decide), List.singleton_append, tokens_string h, List.nil_append]

/-- A command of plain arguments is read back as they are. -/
theorem tokens_command {arguments : List (List Char)}
    (h : ∀ argument ∈ arguments, isPlain argument = true) :
    tokens .between (command powershellQuote arguments) = some (arguments.map .string) := by
  induction arguments with
  | nil => rfl
  | cons argument arguments ih =>
    have hplain := h argument List.mem_cons_self
    cases arguments with
    | nil =>
      have hquote := tokens_quote hplain []
      rw [List.append_nil] at hquote
      show tokens .between (powershellQuote argument) = _
      rw [hquote, tokens]
      rfl
    | cons next arguments =>
      show tokens .between
        (powershellQuote argument ++ ' ' :: command powershellQuote (next :: arguments)) = _
      rw [tokens_quote hplain, tokens, if_neg (by decide), if_pos (by decide),
        ih fun a ha => h a (List.mem_cons_of_mem argument ha)]
      rfl

/-! ### What a string takes

A text holds each string it is read as with every quotation mark doubled. So it is too
short for arguments of which one has a mark that was not doubled. -/

def Token.room : Token → Nat
  | .string value => value.length + marks value + 3
  | _ => 0

def Mode.room : Mode → Nat
  | .string value => value.length + marks value + 1
  | .closed value => value.length + marks value + 2
  | _ => 0

theorem marks_append_mark {c : Char} (h : isSingleQuote c = true) (value : List Char) :
    marks (value ++ [c]) = marks value + 1 := by
  rw [marks, List.countP_append, List.countP_singleton, if_pos h]
  rfl

theorem marks_append_other {c : Char} (h : ¬isSingleQuote c = true) (value : List Char) :
    marks (value ++ [c]) = marks value := by
  rw [marks, List.countP_append, List.countP_singleton, if_neg h]
  rfl

theorem room_map_cons {result : Option (List Token)} {found : List Token} {token : Token}
    (h : result.map (token :: ·) = some found) :
    ∃ rest, result = some rest ∧
      (found.map Token.room).sum = token.room + (rest.map Token.room).sum := by
  obtain ⟨rest, hrest, rfl⟩ := Option.map_eq_some_iff.mp h
  exact ⟨rest, hrest, by rw [List.map_cons, List.sum_cons]⟩

theorem tokens_room {text : List Char} : ∀ {mode : Mode} {found : List Token},
    tokens mode text = some found → (found.map Token.room).sum ≤ mode.room + text.length + 1 := by
  induction text with
  | nil =>
    intro mode found h
    cases mode with
    | between =>
      cases h
      exact Nat.zero_le _
    | reference name =>
      cases h
      exact Nat.zero_le _
    | string value => cases h
    | closed value =>
      cases h
      simp [Token.room, Mode.room]
  | cons c text ih =>
    intro mode found h
    rw [List.length_cons]
    cases mode with
    | between =>
      rw [tokens] at h
      split at h
      · have := ih h
        omega
      · split at h
        · have := ih h
          simp only [Mode.room, marks, List.countP_nil, List.length_nil] at this ⊢
          omega
        · split at h
          · have := ih h
            simp only [Mode.room] at this ⊢
            omega
          · have hshort : ∀ token : Token, token.room = 0 →
                (tokens .between text).map (token :: ·) = some found →
                (found.map Token.room).sum ≤ Mode.between.room + (text.length + 1) + 1 := by
              intro token hzero h
              obtain ⟨rest, hrest, hroom⟩ := room_map_cons h
              have := ih hrest
              omega
            split at h
            · exact hshort _ rfl h
            · split at h
              · exact hshort _ rfl h
              · split at h
                · exact hshort _ rfl h
                · cases h
    | reference name =>
      rw [tokens] at h
      split at h
      · obtain ⟨rest, hrest, hroom⟩ := room_map_cons h
        have := ih hrest
        simp only [Token.room, Mode.room] at this hroom ⊢
        omega
      · split at h
        · have := ih h
          simp only [Mode.room] at this ⊢
          omega
        · cases h
    | string value =>
      rw [tokens] at h
      split at h
      · have := ih h
        simp only [Mode.room] at this ⊢
        omega
      · next hother =>
        have := ih h
        simp only [Mode.room, marks_append_other hother, List.length_append,
          List.length_singleton] at this ⊢
        omega
    | closed value =>
      rw [tokens] at h
      split at h
      · next hmark =>
        have := ih h
        simp only [Mode.room, marks_append_mark hmark, List.length_append,
          List.length_singleton] at this ⊢
        omega
      · split at h
        · obtain ⟨rest, hrest, hroom⟩ := room_map_cons h
          have := ih hrest
          simp only [Token.room, Mode.room] at this hroom ⊢
          omega
        · split at h
          · obtain ⟨rest, hrest, rfl⟩ := Option.map_eq_some_iff.mp h
            have := ih hrest
            simp only [List.map_cons, List.sum_cons, Token.room, Mode.room] at this ⊢
            omega
          · cases h

theorem count_le_marks (value : List Char) :
    value.count quoteMark ≤ marks value ∧
      (marks value ≤ value.count quoteMark → isPlain value = true) := by
  induction value with
  | nil => exact ⟨Nat.le_refl 0, fun _ => rfl⟩
  | cons c value ih =>
    have hmark : isSingleQuote quoteMark = true := by decide
    simp only [marks, isPlain, List.all_cons, Bool.and_eq_true] at ih ⊢
    by_cases hc : c = quoteMark
    · subst hc
      rw [List.count_cons_self, List.countP_cons_of_pos hmark]
      refine ⟨by omega, fun h => ⟨by decide, ih.2 (by omega)⟩⟩
    · rw [List.count_cons_of_ne hc]
      by_cases hq : isSingleQuote c = true
      · rw [List.countP_cons_of_pos hq]
        exact ⟨by omega, fun h => absurd ih.1 (by omega)⟩
      · rw [List.countP_cons_of_neg hq]
        exact ⟨ih.1, fun h => ⟨by simp [hq], ih.2 h⟩⟩

theorem room_le {arguments : List (List Char)}
    (h : ((arguments.map Token.string).map Token.room).sum ≤ room powershellCost arguments) :
    ∀ argument ∈ arguments, isPlain argument = true := by
  have hleast : ∀ arguments : List (List Char),
      room powershellCost arguments ≤ ((arguments.map Token.string).map Token.room).sum := by
    intro arguments
    induction arguments with
    | nil => exact Nat.le_refl 0
    | cons argument arguments ih =>
      have := (count_le_marks argument).1
      simp only [room_cons, powershellCost, List.map_cons, List.sum_cons, Token.room]
      omega
  induction arguments with
  | nil =>
    intro argument hmem
    cases hmem
  | cons argument arguments ih =>
    have hrest := hleast arguments
    obtain ⟨hmarks, hplain⟩ := count_le_marks argument
    simp only [room_cons, powershellCost, List.map_cons, List.sum_cons, Token.room] at h
    intro other hmem
    rcases List.mem_cons.mp hmem with rfl | hmem
    · exact hplain (by omega)
    · exact ih (by omega) other hmem

/-- A command is read as its arguments exactly when they have no quotation mark but the
apostrophe. -/
theorem tokens_command_iff {arguments : List (List Char)} (hne : arguments ≠ []) :
    tokens .between (command powershellQuote arguments) = some (arguments.map .string) ↔
      ∀ argument ∈ arguments, isPlain argument = true := by
  constructor
  · intro h
    have hlength := length_command length_powershellQuote hne
    have hroom := tokens_room h
    refine room_le ?_
    simp only [Mode.room] at hroom
    omega
  · exact tokens_command

theorem mapM_value (arguments : List (List Char)) :
    (arguments.map Token.string).mapM Token.value = some arguments := by
  induction arguments with
  | nil => rfl
  | cons argument arguments ih =>
    rw [List.map_cons, List.mapM_cons, ih]
    rfl

theorem mapM_value_eq {rest : List Token} {arguments : List (List Char)}
    (h : rest.mapM Token.value = some arguments) : rest = arguments.map Token.string := by
  induction rest generalizing arguments with
  | nil =>
    cases h
    rfl
  | cons token rest ih =>
    rw [List.mapM_cons] at h
    cases token with
    | string value =>
      cases hrest : rest.mapM Token.value with
      | none =>
        rw [hrest] at h
        cases h
      | some others =>
        rw [hrest] at h
        cases h
        rw [ih hrest, List.map_cons]
    | _ => cases h

end Powershell

end Shell
