import Mathlib.Data.List.Count
import Mathlib.Data.List.TakeWhile

/-! # Command-line options

An argument vector read by a grammar of options: what starts with a dash is an
option, long or a row of short ones, until a separator; an option with a value takes
the rest of its argument or the next one, whatever it looks like. -/

namespace Options

abbrev Text := List Char

inductive Kind
  | flag
  | value
  deriving DecidableEq

/-- The options a command declares. -/
structure Grammar where
  long : Text → Option Kind
  short : Char → Option Kind

/-- An option of the vector with its value. -/
abbrev Entry := Text × Option Text

structure Parsed where
  entries : List Entry
  positionals : List Text
  deriving DecidableEq

namespace Parsed

def enter (entries : List Entry) (parsed : Parsed) : Parsed :=
  { parsed with entries := entries ++ parsed.entries }

def place (argument : Text) (parsed : Parsed) : Parsed :=
  { parsed with positionals := argument :: parsed.positionals }

end Parsed

def separator : Text := ['-', '-']

def isOptionLike (argument : Text) : Bool :=
  argument.head? == some '-' && decide (1 < argument.length)

/-- What one argument gives: its entries, and the option that wants the next one. -/
structure Reading where
  entries : List Entry
  wants : Option Text

def Reading.enter (entry : Entry) (reading : Reading) : Reading :=
  { reading with entries := entry :: reading.entries }

section

variable (grammar : Grammar)

/-- A row of short options. -/
def shortOptions : Text → Option Reading
  | [] => some ⟨[], none⟩
  | c :: rest =>
    match grammar.short c with
    | none => none
    | some .flag => (shortOptions rest).map (Reading.enter (['-', c], none))
    | some .value =>
      if rest = [] then some ⟨[], some ['-', c]⟩ else some ⟨[(['-', c], some rest)], none⟩

def optionName (argument : Text) : Text := argument.takeWhile fun c => c ≠ '='

def explicitValue (argument : Text) : Option Text :=
  if '=' ∈ argument then some (argument.drop ((optionName argument).length + 1)) else none

/-- Long options first; an unknown one with two dashes is an error. -/
def readOption (argument : Text) : Option Reading :=
  match grammar.long (optionName argument), explicitValue argument with
  | some .value, some value => some ⟨[(optionName argument, some value)], none⟩
  | some .value, none => some ⟨[], some (optionName argument)⟩
  | some .flag, none => some ⟨[(optionName argument, none)], none⟩
  | some .flag, some _ => none
  | none, _ => if argument.take 2 = separator then none else shortOptions grammar (argument.drop 1)

def parse : List Text → Option Parsed
  | [] => some ⟨[], []⟩
  | argument :: rest =>
    if argument = separator then some ⟨[], rest⟩
    else if isOptionLike argument then
      match readOption grammar argument with
      | none => none
      | some ⟨entries, none⟩ => (parse rest).map (Parsed.enter entries)
      | some ⟨entries, some name⟩ =>
        match rest with
        | [] => none
        | value :: rest => (parse rest).map (Parsed.enter (entries ++ [(name, some value)]))
    else (parse rest).map (Parsed.place argument)

end

variable {grammar : Grammar}

theorem parse_positional {argument : Text} (h : isOptionLike argument = false) (rest : List Text) :
    parse grammar (argument :: rest) = (parse grammar rest).map (Parsed.place argument) := by
  have hne : argument ≠ separator := by
    rintro rfl
    exact absurd h (by decide)
  rw [parse, if_neg hne, if_neg (by rw [h]; exact Bool.false_ne_true)]

/-- Arguments that are not option-like are placed, whatever follows. -/
theorem parse_positionals {arguments : List Text} (h : ∀ a ∈ arguments, isOptionLike a = false)
    (rest : List Text) :
    parse grammar (arguments ++ rest) = (parse grammar rest).map fun parsed =>
      { parsed with positionals := arguments ++ parsed.positionals } := by
  induction arguments with
  | nil =>
    cases hrest : parse grammar rest with
    | none =>
      rw [List.nil_append, hrest]
      rfl
    | some parsed =>
      rw [List.nil_append, hrest]
      rfl
  | cons argument arguments ih =>
    rw [List.cons_append, parse_positional (h argument List.mem_cons_self),
      ih fun a ha => h a (List.mem_cons_of_mem argument ha), Option.map_map]
    rfl

/-- A long option with its value as the next argument. -/
theorem parse_value {name : Text} (hlong : grammar.long name = some .value)
    (hlike : isOptionLike name = true) (hne : name ≠ separator) (hsign : '=' ∉ name)
    (value : Text) (rest : List Text) :
    parse grammar (name :: value :: rest) =
      (parse grammar rest).map (Parsed.enter [(name, some value)]) := by
  have hname : optionName name = name := by
    refine List.takeWhile_eq_self_iff.mpr fun c hc => decide_eq_true ?_
    rintro rfl
    exact hsign hc
  have hread : readOption grammar name = some ⟨[], some name⟩ := by
    rw [readOption, explicitValue, if_neg hsign, hname, hlong]
  rw [parse, if_neg hne, if_pos hlike, hread]
  rfl

/-- No positional is option-like unless a separator was read, which then is missing from
the positionals. -/
theorem positionals_of_parse : ∀ {arguments : List Text} {parsed : Parsed},
    parse grammar arguments = some parsed →
    (∀ a ∈ parsed.positionals, isOptionLike a = false) ∨
      parsed.positionals.count separator < arguments.count separator
  | [], parsed, h => by
    cases h
    exact Or.inl fun a ha => absurd ha List.not_mem_nil
  | argument :: rest, parsed, h => by
    rw [parse] at h
    split at h
    · next hseparator =>
      cases h
      right
      rw [hseparator, List.count_cons_self]
      exact Nat.lt_succ_self _
    · have hcount : rest.count separator ≤ (argument :: rest).count separator :=
        List.count_le_count_cons
      split at h
      · split at h
        · cases h
        · obtain ⟨found, hfound, rfl⟩ := Option.map_eq_some_iff.mp h
          rcases positionals_of_parse hfound with hplain | hless
          · exact Or.inl hplain
          · exact Or.inr (Nat.lt_of_lt_of_le hless hcount)
        · split at h
          · cases h
          · next value rest =>
            obtain ⟨found, hfound, rfl⟩ := Option.map_eq_some_iff.mp h
            have hvalue : rest.count separator ≤ (value :: rest).count separator :=
              List.count_le_count_cons
            rcases positionals_of_parse hfound with hplain | hless
            · exact Or.inl hplain
            · exact Or.inr (Nat.lt_of_lt_of_le hless (Nat.le_trans hvalue hcount))
      · next hseparator hlike =>
        obtain ⟨found, hfound, rfl⟩ := Option.map_eq_some_iff.mp h
        rcases positionals_of_parse hfound with hplain | hless
        · left
          intro a ha
          rcases List.mem_cons.mp ha with rfl | ha
          · exact Bool.eq_false_iff.mpr hlike
          · exact hplain a ha
        · right
          show (argument :: found.positionals).count separator < _
          rw [List.count_cons_of_ne hseparator, List.count_cons_of_ne hseparator]
          exact hless

/-- Arguments are read as positionals exactly when none is option-like, if what follows
has no separator. -/
theorem positionals_iff {texts rest : List Text} {entries : List Entry}
    (hrest : parse grammar rest = some ⟨entries, []⟩) (hseparator : separator ∉ rest) :
    parse grammar (texts ++ rest) = some ⟨entries, texts⟩ ↔
      ∀ text ∈ texts, isOptionLike text = false := by
  constructor
  · intro h
    rcases positionals_of_parse h with hplain | hless
    · exact hplain
    · rw [List.count_append, List.count_eq_zero_of_not_mem hseparator] at hless
      exact absurd hless (Nat.lt_irrefl _)
  · intro h
    rw [parse_positionals h, hrest, Option.map_some, List.append_nil]

end Options
