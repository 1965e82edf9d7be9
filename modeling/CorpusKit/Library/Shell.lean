import CorpusKit.Library.Words

/-! # Shell words

Arguments quoted for a POSIX shell and for PowerShell, and joined by blanks to a
command. Each quoting has a cost, the length of the quoted argument, which is
told from the argument alone: the length of a command is the sum of the costs. -/

namespace Shell

/-- The characters no POSIX shell gives a meaning to. -/
def isSafe (c : Char) : Bool :=
  c.isAlphanum || ['_', '@', '%', '+', '=', ':', ',', '.', '/', '-'].contains c

def quoteMark : Char := '\''

/-- The text with each apostrophe replaced. -/
def replaceMarks (replacement : List Char) : List Char → List Char
  | [] => []
  | c :: text =>
    if c = quoteMark then replacement ++ replaceMarks replacement text
    else c :: replaceMarks replacement text

/-- `shlex.quote`. -/
def posixQuote (argument : List Char) : List Char :=
  if argument = [] then [quoteMark, quoteMark]
  else if argument.all isSafe then argument
  else quoteMark :: (replaceMarks [quoteMark, '"', quoteMark, '"', quoteMark] argument ++ [quoteMark])

/-- Single quotes, with apostrophes doubled. -/
def powershellQuote (argument : List Char) : List Char :=
  quoteMark :: (replaceMarks [quoteMark, quoteMark] argument ++ [quoteMark])

/-- `" ".join` of quoted arguments. -/
def command (quote : List Char → List Char) (arguments : List (List Char)) : List Char :=
  Words.join ' ' (arguments.map quote)

/-! ## Costs -/

/-- What an argument takes in a POSIX command: itself, or two quotes more and
four characters more for each apostrophe. -/
def posixCost (argument : List Char) : Nat :=
  if argument = [] then 2
  else if argument.all isSafe then argument.length
  else argument.length + 2 + 4 * argument.count quoteMark

def powershellCost (argument : List Char) : Nat :=
  argument.length + 2 + argument.count quoteMark

theorem length_replaceMarks (replacement text : List Char) :
    (replaceMarks replacement text).length + text.count quoteMark =
      text.length + replacement.length * text.count quoteMark := by
  induction text with
  | nil => rfl
  | cons c text ih =>
    unfold replaceMarks
    split
    · next hc =>
      subst hc
      rw [List.length_append, List.count_cons_self, List.length_cons, Nat.mul_add, Nat.mul_one]
      omega
    · next hc =>
      rw [List.length_cons, List.length_cons, List.count_cons_of_ne hc]
      omega

theorem length_powershellQuote (argument : List Char) :
    (powershellQuote argument).length = powershellCost argument := by
  have hreplaced := length_replaceMarks [quoteMark, quoteMark] argument
  simp only [powershellQuote, powershellCost, List.length_cons, List.length_append,
    List.length_nil] at hreplaced ⊢
  omega

/-- The room of arguments: each with the blank before it. -/
def room (cost : List Char → Nat) (arguments : List (List Char)) : Nat :=
  (arguments.map fun argument => cost argument + 1).sum

@[simp] theorem room_cons (cost : List Char → Nat) (argument : List Char)
    (arguments : List (List Char)) :
    room cost (argument :: arguments) = cost argument + 1 + room cost arguments := rfl

/-- The length of a command. -/
theorem length_command {quote : List Char → List Char} {cost : List Char → Nat}
    (hcost : ∀ argument, (quote argument).length = cost argument)
    {arguments : List (List Char)} (hne : arguments ≠ []) :
    (command quote arguments).length + 1 = room cost arguments := by
  induction arguments with
  | nil => exact absurd rfl hne
  | cons argument arguments ih =>
    cases arguments with
    | nil =>
      show (quote argument).length + 1 = cost argument + 1 + 0
      rw [hcost, Nat.add_zero]
    | cons next arguments =>
      have hrest := ih (List.cons_ne_nil _ _)
      show (quote argument ++ ' ' :: command quote (next :: arguments)).length + 1 = _
      rw [List.length_append, List.length_cons, hcost, room_cons, hrest]
      omega

end Shell
