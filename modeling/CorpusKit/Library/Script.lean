import CorpusKit.Library.JsonEquality
import Mathlib.Data.List.TakeWhile

/-! # Records in JavaScript's JSON

A JavaScript string is a list of UTF-16 code units. `JSON.stringify` writes a
lone surrogate as an escape, so its text is well formed, and `JSON.parse` reads
every string back. Records here have strings, numbers, booleans and nulls as
fields: `parse` refuses anything nested. -/

namespace Script

open Json

abbrev CodeUnit := Fin 65536

instance codeUnits_neZero : NeZero 65536 := ⟨by decide⟩

def isLead (u : CodeUnit) : Bool := 0xD800 ≤ u.val && u.val < 0xDC00

def isTrail (u : CodeUnit) : Bool := 0xDC00 ≤ u.val && u.val < 0xE000

/-- The code units of a character. -/
def units (c : Char) : List CodeUnit :=
  if c.toNat < 0x10000 then [Fin.ofNat 65536 c.toNat]
  else [Fin.ofNat 65536 (0xD800 + (c.toNat - 0x10000) / 1024),
    Fin.ofNat 65536 (0xDC00 + (c.toNat - 0x10000) % 1024)]

def ofChars (text : List Char) : List CodeUnit := text.flatMap units

/-- The character of a surrogate pair. -/
def astral (lead trail : CodeUnit) : Char :=
  Char.ofNat (0x10000 + (lead.val - 0xD800) * 1024 + (trail.val - 0xDC00))

/-! ## String literals -/

/-- One code unit that is not half of a pair. -/
def quoteUnit (u : CodeUnit) : List Char :=
  if isLead u || isTrail u then
    ['\\', 'u', escapeDigit (u.val / 4096), escapeDigit (u.val / 256 % 16),
      escapeDigit (u.val / 16 % 16), escapeDigit (u.val % 16)]
  else escapeChar (Char.ofNat u.val)

def quoteUnits : List CodeUnit → List Char
  | [] => []
  | [u] => quoteUnit u
  | u :: v :: rest =>
    if isLead u && isTrail v then astral u v :: quoteUnits rest
    else quoteUnit u ++ quoteUnits (v :: rest)

def quote (s : List CodeUnit) : List Char := '"' :: (quoteUnits s ++ ['"'])

def hexValue (c : Char) : Option Nat :=
  if '0' ≤ c ∧ c ≤ '9' then some (c.toNat - 48)
  else if 'a' ≤ c ∧ c ≤ 'f' then some (c.toNat - 87)
  else if 'A' ≤ c ∧ c ≤ 'F' then some (c.toNat - 55)
  else none

def hexUnit (a b c d : Char) : Option CodeUnit := do
  let a ← hexValue a
  let b ← hexValue b
  let c ← hexValue c
  let d ← hexValue d
  pure (Fin.ofNat 65536 (a * 4096 + b * 256 + c * 16 + d))

def simpleEscape (c : Char) : Option Nat :=
  if c = '"' ∨ c = '\\' ∨ c = '/' then some c.toNat
  else if c = 'b' then some 8
  else if c = 't' then some 9
  else if c = 'n' then some 10
  else if c = 'f' then some 12
  else if c = 'r' then some 13
  else none

/-- A string literal after its opening quote. -/
def unquote : List Char → Option (List CodeUnit × List Char)
  | [] => none
  | '"' :: rest => some ([], rest)
  | '\\' :: 'u' :: a :: b :: c :: d :: rest => do
    let u ← hexUnit a b c d
    let (s, rest) ← unquote rest
    pure (u :: s, rest)
  | '\\' :: c :: rest => do
    let u ← simpleEscape c
    let (s, rest) ← unquote rest
    pure (Fin.ofNat 65536 u :: s, rest)
  | c :: rest =>
    if c.toNat < 32 ∨ c = '\\' then none
    else do
      let (s, rest) ← unquote rest
      pure (units c ++ s, rest)

/-! ## Numerals -/

def isDigit (c : Char) : Bool := '0' ≤ c && c ≤ '9'

/-- The number grammar of JSON. -/
def isNumeral (chars : List Char) : Bool :=
  let unsigned := match chars with
    | '-' :: rest => rest
    | rest => rest
  let whole := unsigned.takeWhile isDigit
  let afterWhole := unsigned.dropWhile isDigit
  let (fraction, afterFraction) := match afterWhole with
    | '.' :: rest => (!(rest.takeWhile isDigit).isEmpty, rest.dropWhile isDigit)
    | rest => (true, rest)
  let exponent := match afterFraction with
    | [] => true
    | c :: rest =>
      let digits := match rest with
        | '+' :: digits => digits
        | '-' :: digits => digits
        | digits => digits
      (c == 'e' || c == 'E') && !digits.isEmpty && digits.all isDigit
  decide (whole = Nat.toDigits 10 (Nat.ofDigitChars 10 whole 0)) && fraction && exponent

def numeralValue (chars : List Char) : ℚ := binary64 (decimal (chars.map Char.toLower))

/-! ## Records -/

/-- The value of a field. -/
inductive Scalar
  | str (text : List CodeUnit)
  | number (value : ℚ)
  | bool (value : Bool)
  | null
  deriving DecidableEq

abbrev Record := List (List CodeUnit × Scalar)

/-- A field of a record to be written: a string or a safe integer. -/
inductive Cell
  | text (text : List CodeUnit)
  | integer (value : Nat)
  deriving DecidableEq

def Cell.scalar : Cell → Scalar
  | .text s => .str s
  | .integer n => .number n

def writeCell : Cell → List Char
  | .text s => quote s
  | .integer n => Nat.toDigits 10 n

def writeFields : List (List CodeUnit × Cell) → List Char
  | [] => []
  | [(key, cell)] => quote key ++ ':' :: writeCell cell
  | (key, cell) :: field :: fields =>
    quote key ++ ':' :: (writeCell cell ++ ',' :: writeFields (field :: fields))

/-- `JSON.stringify` of an object. -/
def stringify (fields : List (List CodeUnit × Cell)) : List Char :=
  '\x7b' :: (writeFields fields ++ ['\x7d'])

def isBlank (c : Char) : Bool := c == ' ' || c == '\t' || c == '\n' || c == '\r'

def skip (text : List Char) : List Char := text.dropWhile isBlank

def isNumberChar (c : Char) : Bool :=
  isDigit c || c == '-' || c == '+' || c == '.' || c == 'e' || c == 'E'

def readScalar (text : List Char) : Option (Scalar × List Char) :=
  match text with
  | '"' :: rest => (unquote rest).map fun e => (.str e.1, e.2)
  | 't' :: 'r' :: 'u' :: 'e' :: rest => some (.bool true, rest)
  | 'f' :: 'a' :: 'l' :: 's' :: 'e' :: rest => some (.bool false, rest)
  | 'n' :: 'u' :: 'l' :: 'l' :: rest => some (.null, rest)
  | text =>
    let numeral := text.takeWhile isNumberChar
    if isNumeral numeral then some (.number (numeralValue numeral), text.dropWhile isNumberChar)
    else none

/-- The fields of an object after its opening brace or a comma; the fuel is a
bound on their number. -/
def readFields : Nat → List Char → Option (Record × List Char)
  | 0, _ => none
  | fuel + 1, text =>
    match skip text with
    | '"' :: rest => do
      let (key, rest) ← unquote rest
      match skip rest with
      | ':' :: rest =>
        let (value, rest) ← readScalar (skip rest)
        match skip rest with
        | ',' :: rest =>
          let (fields, rest) ← readFields fuel rest
          pure ((key, value) :: fields, rest)
        | '\x7d' :: rest => pure ([(key, value)], rest)
        | _ => none
      | _ => none
    | _ => none

/-- `JSON.parse` of a text of a record. -/
def parse (text : List Char) : Option Record :=
  match skip text with
  | '\x7b' :: rest =>
    match skip rest with
    | '\x7d' :: rest => if (skip rest).isEmpty then some [] else none
    | rest => do
      let (fields, rest) ← readFields rest.length rest
      if (skip rest).isEmpty then some fields else none
  | _ => none

/-- A property of the parsed object: the last field of a name counts. -/
def Record.get (record : Record) (key : List CodeUnit) : Option Scalar :=
  record.reverse.lookup key

/-! ## Strings are read back -/

theorem hexValue_escapeDigit {n : Nat} (h : n < 16) : hexValue (escapeDigit n) = some n := by
  revert n
  decide

theorem ofNat_val (u : CodeUnit) : Fin.ofNat 65536 u.val = u := Fin.ofNat_val_eq_self u

theorem hexUnit_digits (u : CodeUnit) :
    hexUnit (escapeDigit (u.val / 4096)) (escapeDigit (u.val / 256 % 16))
      (escapeDigit (u.val / 16 % 16)) (escapeDigit (u.val % 16)) = some u := by
  have hu := u.isLt
  have hsum : u.val / 4096 * 4096 + u.val / 256 % 16 * 256 + u.val / 16 % 16 * 16 + u.val % 16 =
      u.val := by omega
  simp only [hexUnit, hexValue_escapeDigit (n := u.val / 4096) (by omega),
    hexValue_escapeDigit (n := u.val / 256 % 16) (by omega),
    hexValue_escapeDigit (n := u.val / 16 % 16) (by omega),
    hexValue_escapeDigit (n := u.val % 16) (by omega), Option.bind_eq_bind, Option.bind_some,
    hsum, ofNat_val, Option.pure_def]

/-- What is read of a text is put in front of what follows. -/
def pushed (s : List CodeUnit) (e : List CodeUnit × List Char) : List CodeUnit × List Char :=
  (s ++ e.1, e.2)

theorem unquote_escaped {u : CodeUnit} (t : List Char) :
    unquote ('\\' :: 'u' :: escapeDigit (u.val / 4096) :: escapeDigit (u.val / 256 % 16) ::
      escapeDigit (u.val / 16 % 16) :: escapeDigit (u.val % 16) :: t) =
        (unquote t).map (pushed [u]) := by
  rw [unquote, hexUnit_digits]
  cases unquote t <;> rfl

theorem unquote_simple {c : Char} {n : Nat} (hu : c ≠ 'u') (h : simpleEscape c = some n)
    (t : List Char) :
    unquote ('\\' :: c :: t) = (unquote t).map (pushed [Fin.ofNat 65536 n]) := by
  rw [unquote, h]
  · cases unquote t <;> rfl
  · intro _ _ _ _ _ hc
    exact absurd hc hu

theorem unquote_char {c : Char} (hquote : c ≠ '"') (hslash : c ≠ '\\') (hcontrol : 32 ≤ c.toNat)
    (t : List Char) : unquote (c :: t) = (unquote t).map (pushed (units c)) := by
  have hc : ¬(c.toNat < 32 ∨ c = '\\') := by
    rintro (h | h)
    · omega
    · exact hslash h
  rw [unquote, if_neg hc]
  · cases unquote t <;> rfl
  all_goals simp_all

theorem toNat_ofNat {n : Nat} (h : n < 0xD800 ∨ 0xDFFF < n ∧ n < 0x110000) :
    (Char.ofNat n).toNat = n := by
  have hvalid : n.isValidChar := h
  rw [Char.ofNat, dif_pos hvalid]
  rfl

theorem units_unit {u : CodeUnit} (h : (isLead u || isTrail u) = false) :
    units (Char.ofNat u.val) = [u] := by
  have hu := u.isLt
  have hrange : u.val < 0xD800 ∨ 0xDFFF < u.val := by
    simp only [isLead, isTrail, Bool.or_eq_false_iff, Bool.and_eq_false_iff, decide_eq_false_iff_not]
      at h
    omega
  have hnat : (Char.ofNat u.val).toNat = u.val := toNat_ofNat (by omega)
  rw [units, hnat, if_pos hu, ofNat_val]

theorem unquote_unit {u : CodeUnit} (h : (isLead u || isTrail u) = false) (t : List Char) :
    unquote (escapeChar (Char.ofNat u.val) ++ t) = (unquote t).map (pushed [u]) := by
  have hunits := units_unit h
  have hu := u.isLt
  have hrange : u.val < 0xD800 ∨ 0xDFFF < u.val := by
    simp only [isLead, isTrail, Bool.or_eq_false_iff, Bool.and_eq_false_iff, decide_eq_false_iff_not]
      at h
    omega
  have hnat : (Char.ofNat u.val).toNat = u.val := toNat_ofNat (by omega)
  have hofNat {n : Nat} (hn : (Char.ofNat u.val).toNat = n) : Fin.ofNat 65536 n = u := by
    rw [← hn, hnat, ofNat_val]
  revert hofNat hunits
  generalize Char.ofNat u.val = c at *
  intro hunits hofNat
  have hsimple {e : Char} {n : Nat} (hu : e ≠ 'u') (he : simpleEscape e = some n) (hn : c.toNat = n) :
      unquote ('\\' :: e :: t) = (unquote t).map (pushed [u]) := by
    rw [unquote_simple hu he, hofNat hn]
  unfold escapeChar
  by_cases h1 : c = '"'
  · rw [if_pos h1]
    exact hsimple (by decide) rfl (by rw [h1])
  by_cases h2 : c = '\\'
  · rw [if_neg h1, if_pos h2]
    exact hsimple (by decide) rfl (by rw [h2])
  by_cases h3 : c = '\n'
  · rw [if_neg h1, if_neg h2, if_pos h3]
    exact hsimple (by decide) rfl (by rw [h3]; rfl)
  by_cases h4 : c = '\r'
  · rw [if_neg h1, if_neg h2, if_neg h3, if_pos h4]
    exact hsimple (by decide) rfl (by rw [h4]; rfl)
  by_cases h5 : c = '\t'
  · rw [if_neg h1, if_neg h2, if_neg h3, if_neg h4, if_pos h5]
    exact hsimple (by decide) rfl (by rw [h5]; rfl)
  rw [if_neg h1, if_neg h2, if_neg h3, if_neg h4, if_neg h5]
  by_cases h6 : c.toNat = 12
  · rw [if_pos h6]
    exact hsimple (by decide) rfl h6
  by_cases h7 : c.toNat = 8
  · rw [if_neg h6, if_pos h7]
    exact hsimple (by decide) rfl h7
  rw [if_neg h6, if_neg h7]
  by_cases h8 : c.toNat < 32
  · rw [if_pos h8]
    have hval : u.val = c.toNat := hnat.symm
    have hescaped := unquote_escaped (u := u) t
    have hzero : escapeDigit 0 = '0' := rfl
    rw [hval, Nat.div_eq_of_lt (by omega), Nat.div_eq_of_lt (by omega), Nat.zero_mod, hzero,
      Nat.mod_eq_of_lt (by omega)] at hescaped
    exact hescaped
  · rw [if_neg h8]
    show unquote (c :: t) = _
    rw [unquote_char h1 h2 (by omega), hunits]

theorem unquote_quoteUnit (u : CodeUnit) (t : List Char) :
    unquote (quoteUnit u ++ t) = (unquote t).map (pushed [u]) := by
  unfold quoteUnit
  split
  · exact unquote_escaped t
  · next h => exact unquote_unit (by simpa using h) t

theorem unquote_astral {u v : CodeUnit} (hu : isLead u = true) (hv : isTrail v = true)
    (t : List Char) : unquote (astral u v :: t) = (unquote t).map (pushed [u, v]) := by
  simp only [isLead, isTrail, Bool.and_eq_true, decide_eq_true_eq] at hu hv
  have hnat : (astral u v).toNat =
      0x10000 + (u.val - 0xD800) * 1024 + (v.val - 0xDC00) := toNat_ofNat (by omega)
  have hne {c : Char} (hc : c.toNat < 0x10000) : astral u v ≠ c := by
    rintro rfl
    omega
  have hunits : units (astral u v) = [u, v] := by
    have hlead : 0xD800 + ((astral u v).toNat - 0x10000) / 1024 = u.val := by omega
    have htrail : 0xDC00 + ((astral u v).toNat - 0x10000) % 1024 = v.val := by omega
    rw [units, if_neg (by omega), hlead, htrail, ofNat_val, ofNat_val]
  rw [unquote_char (hne (by decide)) (hne (by decide)) (by omega), hunits]

/-- Every string is read back from its literal. -/
theorem unquote_quoteUnits (s : List CodeUnit) (rest : List Char) :
    unquote (quoteUnits s ++ '"' :: rest) = some (s, rest) := by
  induction s using quoteUnits.induct with
  | case1 => rfl
  | case2 u =>
    rw [quoteUnits, unquote_quoteUnit, unquote]
    rfl
  | case3 u v s hpair ih =>
    rw [Bool.and_eq_true] at hpair
    rw [quoteUnits, if_pos (by simp [hpair]), List.cons_append, unquote_astral hpair.1 hpair.2, ih]
    rfl
  | case4 u v s hpair ih =>
    rw [quoteUnits, if_neg hpair, List.append_assoc, unquote_quoteUnit, ih]
    rfl

/-! ## Integers are read back -/

theorem isDigit_toDigits {n : Nat} {c : Char} (h : c ∈ Nat.toDigits 10 n) : isDigit c = true := by
  have hc := Json.isDigit_toDigits h
  rw [Char.isDigit, Bool.and_eq_true] at hc
  simpa [isDigit, Char.le_def] using hc

theorem toDigits_head (n : Nat) : ∃ d ds, Nat.toDigits 10 n = d :: ds ∧ isDigit d = true := by
  cases h : Nat.toDigits 10 n with
  | nil => exact absurd h Nat.toDigits_ne_nil
  | cons d ds => exact ⟨d, ds, rfl, isDigit_toDigits (h ▸ List.mem_cons_self)⟩

theorem ne_of_isDigit {c e : Char} (hc : isDigit c = true) (he : isDigit e = false) : c ≠ e := by
  rintro rfl
  rw [hc] at he
  cases he

theorem isNumeral_toDigits (n : Nat) : isNumeral (Nat.toDigits 10 n) = true := by
  have hall : (Nat.toDigits 10 n).takeWhile isDigit = Nat.toDigits 10 n :=
    List.takeWhile_eq_self_iff.mpr fun c hc => isDigit_toDigits hc
  have hnone : (Nat.toDigits 10 n).dropWhile isDigit = [] :=
    List.dropWhile_eq_nil_iff.mpr fun c hc => isDigit_toDigits hc
  have hsigned : (match Nat.toDigits 10 n with
      | '-' :: rest => rest
      | rest => rest) = Nat.toDigits 10 n := by
    obtain ⟨d, ds, hn, hd⟩ := toDigits_head n
    rw [hn]
    split
    · next h =>
      cases h
      cases hd
    · rfl
  unfold isNumeral
  simp only [hsigned, hall, hnone, Nat.ofDigitChars_ten_toDigits, decide_true, Bool.and_true]

theorem decimal_toDigits (n : Nat) : decimal (Nat.toDigits 10 n) = n := by
  have hno {e : Char} (he : isDigit e = false) :
      ∀ c ∈ Nat.toDigits 10 n, (c != e) = true := fun c hc => by
    rw [bne_iff_ne]
    exact ne_of_isDigit (isDigit_toDigits hc) he
  have htake {e : Char} (he : isDigit e = false) :
      (Nat.toDigits 10 n).takeWhile (· != e) = Nat.toDigits 10 n :=
    List.takeWhile_eq_self_iff.mpr (hno he)
  have hdrop {e : Char} (he : isDigit e = false) :
      (Nat.toDigits 10 n).dropWhile (· != e) = [] :=
    List.dropWhile_eq_nil_iff.mpr (hno he)
  have hunsigned : unsignedDecimal (Nat.toDigits 10 n) = n := by
    have he : isDigit 'e' = false := rfl
    have hdot : isDigit '.' = false := rfl
    simp only [unsignedDecimal, htake he, hdrop he, htake hdot, hdrop hdot, List.drop_nil,
      List.append_nil, Nat.ofDigitChars_ten_toDigits]
    simp [signedDigits, Nat.ofDigitChars]
  obtain ⟨d, ds, hn, hd⟩ := toDigits_head n
  rw [← hunsigned, hn]
  unfold decimal
  split
  · next h =>
    cases h
    cases hd
  · rfl

theorem numeralValue_toDigits {n : Nat} (h : n < 2 ^ 53) : numeralValue (Nat.toDigits 10 n) = n := by
  have hlower : (Nat.toDigits 10 n).map Char.toLower = Nat.toDigits 10 n := by
    conv_rhs => rw [← List.map_id (Nat.toDigits 10 n)]
    refine List.map_congr_left fun c hc => ?_
    have hdigit := isDigit_toDigits hc
    have hupper : ¬('A' ≤ c ∧ c ≤ 'Z') := by
      rintro ⟨hA, -⟩
      rw [isDigit, Bool.and_eq_true, decide_eq_true_eq, decide_eq_true_eq] at hdigit
      exact absurd (le_trans hA hdigit.2) (by decide)
    exact dif_neg fun h => hupper ⟨h.1, h.2⟩
  rw [numeralValue, hlower, decimal_toDigits, binary64_natCast h]

/-! ## Records are read back -/

/-- Integers that survive as numbers. -/
def Cell.Safe : Cell → Prop
  | .text _ => True
  | .integer n => n < 2 ^ 53

theorem skip_cons {c : Char} (h : isBlank c = false) (t : List Char) : skip (c :: t) = c :: t := by
  rw [skip, List.dropWhile_cons_of_neg (by simp [h])]

theorem isNumberChar_toDigits {n : Nat} : ∀ c ∈ Nat.toDigits 10 n, isNumberChar c = true :=
  fun c hc => by simp [isNumberChar, isDigit_toDigits hc]

/-- What follows a number in a record. -/
def Ends (t : List Char) : Prop := ∀ c ∈ t.head?, isNumberChar c = false

theorem readScalar_number {n : Nat} (hn : n < 2 ^ 53) {t : List Char} (ht : Ends t) :
    readScalar (Nat.toDigits 10 n ++ t) = some (.number n, t) := by
  have htake : (Nat.toDigits 10 n ++ t).takeWhile isNumberChar = Nat.toDigits 10 n := by
    rw [List.takeWhile_append_of_pos isNumberChar_toDigits]
    cases t with
    | nil => simp
    | cons c t => rw [List.takeWhile_cons_of_neg (by simp [ht c rfl]), List.append_nil]
  have hdrop : (Nat.toDigits 10 n ++ t).dropWhile isNumberChar = t := by
    rw [List.dropWhile_append_of_pos isNumberChar_toDigits]
    cases t with
    | nil => rfl
    | cons c t => rw [List.dropWhile_cons_of_neg (by simp [ht c rfl])]
  have hread : (if isNumeral ((Nat.toDigits 10 n ++ t).takeWhile isNumberChar) then
      some (Scalar.number (numeralValue ((Nat.toDigits 10 n ++ t).takeWhile isNumberChar)),
        (Nat.toDigits 10 n ++ t).dropWhile isNumberChar)
      else none) = some (.number n, t) := by
    rw [htake, hdrop, isNumeral_toDigits, numeralValue_toDigits hn]
    rfl
  obtain ⟨d, ds, hd, hdigit⟩ := toDigits_head n
  rw [hd, List.cons_append] at hread ⊢
  unfold readScalar
  split
  · next h => obtain ⟨rfl, -⟩ := List.cons.inj h; cases hdigit
  · next h => obtain ⟨rfl, -⟩ := List.cons.inj h; cases hdigit
  · next h => obtain ⟨rfl, -⟩ := List.cons.inj h; cases hdigit
  · next h => obtain ⟨rfl, -⟩ := List.cons.inj h; cases hdigit
  · exact hread

theorem readScalar_writeCell {cell : Cell} (h : cell.Safe) {t : List Char} (ht : Ends t) :
    readScalar (writeCell cell ++ t) = some (cell.scalar, t) := by
  cases cell with
  | text s =>
    rw [writeCell, quote, List.cons_append, List.append_assoc, readScalar, List.singleton_append,
      unquote_quoteUnits]
    rfl
  | integer n => exact readScalar_number h ht

theorem writeCell_head (cell : Cell) :
    ∃ c t, writeCell cell = c :: t ∧ isBlank c = false := by
  cases cell with
  | text s => exact ⟨'"', _, rfl, rfl⟩
  | integer n =>
    obtain ⟨d, ds, hd, hdigit⟩ := toDigits_head n
    refine ⟨d, ds, hd, ?_⟩
    have hne {e : Char} (he : isDigit e = false) : (d == e) = false := by
      rw [beq_eq_false_iff_ne]
      exact ne_of_isDigit hdigit he
    rw [isBlank, hne rfl, hne rfl, hne rfl, hne rfl]
    rfl

theorem skip_writeCell (cell : Cell) (t : List Char) :
    skip (writeCell cell ++ t) = writeCell cell ++ t := by
  obtain ⟨c, r, hc, hblank⟩ := writeCell_head cell
  rw [hc, List.cons_append, skip_cons hblank]

/-- One written field is read up to what follows it. -/
theorem readFields_step {fuel : Nat} {key : List CodeUnit} {cell : Cell} (h : cell.Safe)
    {t : List Char} (ht : Ends t) :
    readFields (fuel + 1) (quote key ++ ':' :: (writeCell cell ++ t)) =
      match skip t with
      | ',' :: rest =>
        (readFields fuel rest).map fun e => ((key, cell.scalar) :: e.1, e.2)
      | '\x7d' :: rest => some ([(key, cell.scalar)], rest)
      | _ => none := by
  have hquote : quote key ++ ':' :: (writeCell cell ++ t) =
      '"' :: (quoteUnits key ++ '"' :: ':' :: (writeCell cell ++ t)) := by
    simp [quote]
  rw [hquote, readFields, skip_cons rfl]
  simp only [unquote_quoteUnits, Option.bind_eq_bind, Option.bind_some, skip_cons (c := ':') rfl,
    skip_writeCell, readScalar_writeCell h ht]
  split
  · next rest _ => cases readFields fuel rest <;> rfl
  · rfl
  · rfl

theorem readFields_writeFields {fields : List (List CodeUnit × Cell)} (hne : fields ≠ [])
    (hsafe : ∀ field ∈ fields, field.2.Safe) {fuel : Nat} (hfuel : fields.length ≤ fuel)
    (rest : List Char) :
    readFields fuel (writeFields fields ++ '\x7d' :: rest) =
      some (fields.map fun field => (field.1, field.2.scalar), rest) := by
  induction fields using writeFields.induct generalizing fuel with
  | case1 => exact absurd rfl hne
  | case2 key cell =>
    obtain ⟨fuel, rfl⟩ : ∃ k, fuel = k + 1 := ⟨fuel - 1, by simp at hfuel; omega⟩
    have hcell : cell.Safe := hsafe (key, cell) List.mem_cons_self
    have hends : Ends ('\x7d' :: rest) := fun c hc => by cases hc; rfl
    rw [writeFields, List.append_assoc, List.cons_append, readFields_step hcell hends]
    rfl
  | case3 key cell field fields ih =>
    obtain ⟨fuel, rfl⟩ : ∃ k, fuel = k + 1 := ⟨fuel - 1, by simp at hfuel; omega⟩
    have hcell : cell.Safe := hsafe (key, cell) List.mem_cons_self
    have hends : Ends (',' :: (writeFields (field :: fields) ++ '\x7d' :: rest)) := fun c hc => by
      cases hc
      rfl
    have hlength : (field :: fields).length ≤ fuel := by
      simp only [List.length_cons] at hfuel ⊢
      omega
    have hrest := ih (List.cons_ne_nil _ _) (fun f hf => hsafe f (List.mem_cons_of_mem _ hf)) hlength
    rw [writeFields, List.append_assoc, List.cons_append, List.append_assoc, List.cons_append,
      readFields_step hcell hends]
    show (readFields fuel _).map _ = _
    rw [hrest]
    rfl

theorem length_writeFields (fields : List (List CodeUnit × Cell)) :
    fields.length ≤ (writeFields fields).length := by
  induction fields using writeFields.induct with
  | case1 => rfl
  | case2 key cell => simp [writeFields, quote]
  | case3 key cell field fields ih =>
    rw [writeFields]
    simp only [List.length_append, List.length_cons] at ih ⊢
    omega

theorem writeFields_head {fields : List (List CodeUnit × Cell)} (hne : fields ≠ []) :
    ∃ t, writeFields fields = '"' :: t := by
  match fields, hne with
  | [(key, cell)], _ => exact ⟨_, rfl⟩
  | (key, cell) :: field :: fields, _ => exact ⟨_, rfl⟩

/-- **Records round-trip.** What `JSON.parse` reads of a written record are its fields. -/
theorem parse_stringify {fields : List (List CodeUnit × Cell)} (hne : fields ≠ [])
    (hsafe : ∀ field ∈ fields, field.2.Safe) :
    parse (stringify fields) = some (fields.map fun field => (field.1, field.2.scalar)) := by
  obtain ⟨t, ht⟩ := writeFields_head hne
  have hfuel : fields.length ≤ (writeFields fields ++ ['\x7d']).length := by
    have := length_writeFields fields
    rw [List.length_append]
    omega
  have hread := readFields_writeFields hne hsafe hfuel []
  rw [stringify, parse, skip_cons rfl]
  rw [ht, List.cons_append] at hread ⊢
  have hskip : skip ('"' :: (t ++ ['\x7d'])) = '"' :: (t ++ ['\x7d']) := skip_cons rfl _
  simp only [hskip]
  show ((readFields _ _).bind fun e => if (skip e.2).isEmpty then some e.1 else none) = _
  rw [hread]
  rfl

/-- A property of a written record is the value that was written for it. -/
theorem Record.get_written {fields : List (List CodeUnit × Cell)}
    (hnodup : (fields.map Prod.fst).Nodup) {key : List CodeUnit} {cell : Cell}
    (h : (key, cell) ∈ fields) :
    Record.get (fields.map fun field => (field.1, field.2.scalar)) key = some cell.scalar := by
  have hnames : (fields.map fun field => (field.1, field.2.scalar)).reverse.map Prod.fst =
      (fields.map Prod.fst).reverse := by
    rw [List.map_reverse, List.map_map]
    rfl
  refine lookup_of_mem ?_ (List.mem_reverse.mpr (List.mem_map.mpr ⟨_, h, rfl⟩))
  rw [hnames, List.nodup_reverse]
  exact hnodup

/-- A property that was not written is not there. -/
theorem Record.get_unwritten {fields : List (List CodeUnit × Cell)} {key : List CodeUnit}
    (h : key ∉ fields.map Prod.fst) :
    Record.get (fields.map fun field => (field.1, field.2.scalar)) key = none := by
  cases hget : Record.get (fields.map fun field => (field.1, field.2.scalar)) key with
  | none => rfl
  | some value =>
    obtain ⟨field, hfield, heq⟩ := List.mem_map.mp (List.mem_reverse.mp (mem_of_lookup hget))
    obtain ⟨rfl, -⟩ := Prod.mk.inj heq
    exact absurd (List.mem_map.mpr ⟨field, hfield, rfl⟩) h

end Script
