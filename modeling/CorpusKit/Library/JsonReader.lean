import CorpusKit.Library.JsonEquality
import Mathlib.Data.List.TakeWhile

/-! # Reading JSON

`json.loads` on a text. The reader takes one code point at a time and keeps the
containers that are still open on a stack, whose height the interpreter bounds.
A string is a sequence of code points, since an escape can leave a surrogate
without its pair. Texts of values read back as those values. -/

namespace Json.Reader

/-- A code point of a Python string: a character, or a surrogate on its own. -/
inductive Point
  | char (c : Char)
  | surrogate (n : Nat)
  deriving DecidableEq, Repr

def Point.ofNat (n : Nat) : Point :=
  if n.isValidChar then .char (Char.ofNat n) else .surrogate n

/-- A string as Python has it. -/
abbrev Str := List Point

def Str.ofChars (s : List Char) : Str := s.map .char

inductive Constant
  | nan
  | infinity
  | minusInfinity
  deriving DecidableEq, Repr

/-- What `json.loads` returns; a dictionary lists its items. -/
inductive Decoded
  | null
  | bool (value : Bool)
  | int (value : Int)
  | float (value : FloatText)
  | constant (value : Constant)
  | str (value : Str)
  | arr (items : List Decoded)
  | obj (fields : List (Str × Decoded))

/-- The exceptions of `json.loads`; a `JSONDecodeError` is a `ValueError`. -/
inductive Failure
  | value
  | recursion
  deriving DecidableEq, Repr

/-! ## The reader -/

/-- `fields[key] = value`. -/
def setItem (fields : List (Str × Decoded)) (key : Str) (value : Decoded) :
    List (Str × Decoded) :=
  if key ∈ fields.map Prod.fst then
    fields.map fun field => if field.1 = key then (key, value) else field
  else fields ++ [(key, value)]

/-- A container that is still open. -/
inductive Frame
  | items (items : List Decoded)
  | fields (fields : List (Str × Decoded))
  /-- A dictionary whose next value has this key. -/
  | member (fields : List (Str × Decoded)) (key : Str)

/-- Where the reader stands. -/
inductive Mode
  | value
  /-- After `[`, where the array may also end. -/
  | first
  /-- After `{`, where the object may also end. -/
  | firstKey
  | key
  | colon
  /-- After a value inside a container. -/
  | after
  | number (chars : List Char)
  /-- Inside a name, with the characters that must follow. -/
  | word (rest : List Char) (value : Decoded)
  /-- Inside a string, with an escaped high surrogate that may find its pair. -/
  | string (text : Str) (high : Option Nat)
  | escape (text : Str) (high : Option Nat)
  | unicode (text : Str) (high : Option Nat) (digits : List Char)
  | done (value : Decoded)

structure State where
  stack : List Frame
  mode : Mode

def isSpace (c : Char) : Bool := c == ' ' || c == '\t' || c == '\n' || c == '\r'

def isNumberChar (c : Char) : Bool := isNumeric c || c == 'E'

/-- A value is complete. -/
def deliver (value : Decoded) : List Frame → State
  | .items items :: stack => ⟨.items (items ++ [value]) :: stack, .after⟩
  | .member fields key :: stack => ⟨.fields (setItem fields key value) :: stack, .after⟩
  | stack => ⟨stack, .done value⟩

/-! ### Numbers -/

def dropSign : List Char → List Char
  | '-' :: rest => rest
  | '+' :: rest => rest
  | rest => rest

/-- `([eE][-+]?[0-9]+)?` -/
def isExponent : List Char → Bool
  | [] => true
  | c :: rest => (c == 'e' || c == 'E') && dropSign rest != [] && (dropSign rest).all Char.isDigit

/-- `(\.[0-9]+)?([eE][-+]?[0-9]+)?` -/
def isFraction : List Char → Bool
  | '.' :: rest => rest.takeWhile Char.isDigit != [] && isExponent (rest.dropWhile Char.isDigit)
  | rest => isExponent rest

/-- `0|[1-9][0-9]*` -/
def isWhole (digits : List Char) : Bool :=
  digits == ['0'] || digits != [] && digits.head? != some '0'

def unsigned : List Char → List Char
  | '-' :: rest => rest
  | rest => rest

section Reader

/- `float(chars)` by its `repr`, none where it overflows, and the depth at which
the interpreter gives up. -/
variable (float : List Char → Option FloatText) (limit : Nat)

/-- A longest run of number characters; where `NUMBER_RE` matches less of it, what
is left is not a delimiter. -/
def readNumber (chars : List Char) : Except Failure Decoded :=
  let whole := (unsigned chars).takeWhile Char.isDigit
  let rest := (unsigned chars).dropWhile Char.isDigit
  if !isWhole whole || !isFraction rest then .error .value
  else if rest = [] then
    if 4300 < whole.length then .error .value else .ok (.int (signedDigits chars))
  else
    match float chars with
    | some x => .ok (.float x)
    | none => .ok (.constant (if chars.head? = some '-' then .minusInfinity else .infinity))

/-! ### Strings -/

def flush (text : Str) : Option Nat → Str
  | none => text
  | some high => text ++ [.surrogate high]

/-- The closing quote of a key or of a value. -/
def endString (text : Str) : List Frame → State
  | .fields fields :: stack => ⟨.member fields text :: stack, .colon⟩
  | stack => deliver (.str text) stack

def stringStep (stack : List Frame) (text : Str) (high : Option Nat) (p : Point) :
    Except Failure State :=
  match p with
  | .char '"' => .ok (endString (flush text high) stack)
  | .char '\\' => .ok ⟨stack, .escape text high⟩
  | .char c =>
    if c.toNat < 32 then .error .value
    else .ok ⟨stack, .string (flush text high ++ [.char c]) none⟩
  | .surrogate n => .ok ⟨stack, .string (flush text high ++ [.surrogate n]) none⟩

def escaped : Char → Option Char
  | '"' => some '"'
  | '\\' => some '\\'
  | '/' => some '/'
  | 'b' => some (Char.ofNat 8)
  | 'f' => some (Char.ofNat 12)
  | 'n' => some '\n'
  | 'r' => some '\r'
  | 't' => some '\t'
  | _ => none

def escapeStep (stack : List Frame) (text : Str) (high : Option Nat) (c : Char) :
    Except Failure State :=
  if c = 'u' then .ok ⟨stack, .unicode text high []⟩
  else
    match escaped c with
    | some d => .ok ⟨stack, .string (flush text high ++ [.char d]) none⟩
    | none => .error .value

def hexValue (c : Char) : Option Nat :=
  if c.isDigit then some (c.toNat - 48)
  else if 'a' ≤ c ∧ c ≤ 'f' then some (c.toNat - 87)
  else if 'A' ≤ c ∧ c ≤ 'F' then some (c.toNat - 55)
  else none

def unicodeValue (digits : List Char) : Nat :=
  digits.foldl (fun n c => 16 * n + (hexValue c).getD 0) 0

/-- Four hexadecimal digits: one of a pair, or a code point of its own. -/
def unicodeEnd (text : Str) (high : Option Nat) (n : Nat) : Mode :=
  match high with
  | some h =>
    if 0xDC00 ≤ n ∧ n < 0xE000 then
      .string (text ++ [.ofNat (0x10000 + (h - 0xD800) * 0x400 + (n - 0xDC00))]) none
    else if 0xD800 ≤ n ∧ n < 0xDC00 then .string (flush text high) (some n)
    else .string (flush text high ++ [.ofNat n]) none
  | none =>
    if 0xD800 ≤ n ∧ n < 0xDC00 then .string text (some n) else .string (text ++ [.ofNat n]) none

def unicodeStep (stack : List Frame) (text : Str) (high : Option Nat) (digits : List Char)
    (c : Char) : Except Failure State :=
  if (hexValue c).isNone then .error .value
  else if digits.length < 3 then .ok ⟨stack, .unicode text high (digits ++ [c])⟩
  else .ok ⟨stack, unicodeEnd text high (unicodeValue (digits ++ [c]))⟩

/-! ### Values and containers -/

/-- A container opens, unless too many are open. -/
def opened (stack : List Frame) (frame : Frame) (mode : Mode) : Except Failure State :=
  if stack.length < limit then .ok ⟨frame :: stack, mode⟩ else .error .recursion

def start (stack : List Frame) (c : Char) : Except Failure State :=
  match c with
  | '"' => .ok ⟨stack, .string [] none⟩
  | '[' => opened limit stack (.items []) .first
  | '{' => opened limit stack (.fields []) .firstKey
  | 'n' => .ok ⟨stack, .word ['u', 'l', 'l'] .null⟩
  | 't' => .ok ⟨stack, .word ['r', 'u', 'e'] (.bool true)⟩
  | 'f' => .ok ⟨stack, .word ['a', 'l', 's', 'e'] (.bool false)⟩
  | 'N' => .ok ⟨stack, .word ['a', 'N'] (.constant .nan)⟩
  | 'I' => .ok ⟨stack, .word ['n', 'f', 'i', 'n', 'i', 't', 'y'] (.constant .infinity)⟩
  | c => if c.isDigit || c == '-' then .ok ⟨stack, .number [c]⟩ else .error .value

def closeArray : List Frame → Except Failure State
  | .items items :: stack => .ok (deliver (.arr items) stack)
  | _ => .error .value

def closeObject : List Frame → Except Failure State
  | .fields fields :: stack => .ok (deliver (.obj fields) stack)
  | _ => .error .value

def comma : List Frame → Except Failure State
  | .items items :: stack => .ok ⟨.items items :: stack, .value⟩
  | .fields fields :: stack => .ok ⟨.fields fields :: stack, .key⟩
  | _ => .error .value

/-- The character after a value. -/
def ended (s : State) (c : Char) : Except Failure State :=
  if isSpace c then .ok s
  else
    match s.mode, c with
    | .after, ',' => comma s.stack
    | .after, ']' => closeArray s.stack
    | .after, '}' => closeObject s.stack
    | _, _ => .error .value

def charStep (s : State) (c : Char) : Except Failure State :=
  match s.mode with
  | .value => if isSpace c then .ok s else start limit s.stack c
  | .first =>
    if isSpace c then .ok s
    else if c = ']' then closeArray s.stack
    else start limit s.stack c
  | .firstKey =>
    if isSpace c then .ok s
    else if c = '}' then closeObject s.stack
    else if c = '"' then .ok ⟨s.stack, .string [] none⟩
    else .error .value
  | .key =>
    if isSpace c then .ok s
    else if c = '"' then .ok ⟨s.stack, .string [] none⟩
    else .error .value
  | .colon =>
    if isSpace c then .ok s else if c = ':' then .ok ⟨s.stack, .value⟩ else .error .value
  | .number chars =>
    if isNumberChar c then .ok ⟨s.stack, .number (chars ++ [c])⟩
    else if chars = ['-'] ∧ c = 'I' then
      .ok ⟨s.stack, .word ['n', 'f', 'i', 'n', 'i', 't', 'y'] (.constant .minusInfinity)⟩
    else do
      let value ← readNumber float chars
      ended (deliver value s.stack) c
  | .word [] _ => .error .value
  | .word [d] value => if c = d then .ok (deliver value s.stack) else .error .value
  | .word (d :: e :: rest) value =>
    if c = d then .ok ⟨s.stack, .word (e :: rest) value⟩ else .error .value
  | .string text high => stringStep s.stack text high (.char c)
  | .escape text high => escapeStep s.stack text high c
  | .unicode text high digits => unicodeStep s.stack text high digits c
  | .after => ended s c
  | .done _ => ended s c

def step (s : State) (p : Point) : Except Failure State :=
  match p, s.mode with
  | .char c, _ => charStep float limit s c
  | .surrogate n, .string text high => stringStep s.stack text high (.surrogate n)
  | .surrogate _, _ => .error .value

def finish (s : State) : Except Failure Decoded :=
  match s.mode, s.stack with
  | .done value, _ => .ok value
  | .number chars, [] => readNumber float chars
  | _, _ => .error .value

/-- The state after a text. -/
def run (s : State) (text : Str) : Except Failure State := text.foldlM (step float limit) s

/-- `json.loads` of a string. -/
def loads (text : Str) : Except Failure Decoded := do
  let s ← run float limit ⟨[], .value⟩ text
  finish float s

end Reader

variable {float : List Char → Option FloatText} {limit : Nat}

theorem bind_ok {α β ε : Type} (a : α) (f : α → Except ε β) : (Except.ok a >>= f) = f a := rfl

@[simp] theorem Str.ofChars_nil : Str.ofChars [] = [] := rfl

@[simp] theorem Str.ofChars_cons (c : Char) (s : List Char) :
    Str.ofChars (c :: s) = .char c :: Str.ofChars s := rfl

@[simp] theorem Str.ofChars_append (s t : List Char) :
    Str.ofChars (s ++ t) = Str.ofChars s ++ Str.ofChars t := List.map_append

theorem run_char {s s' : State} {c : Char} (h : charStep float limit s c = .ok s') (t : Str) :
    run float limit s (.char c :: t) = run float limit s' t := by
  rw [run, List.foldlM_cons, show step float limit s (.char c) = charStep float limit s c from rfl, h]
  rfl

/-- Two states that take a character alike. -/
theorem run_congr {s s' : State} {c : Char} (h : charStep float limit s c = charStep float limit s' c)
    (t : Str) : run float limit s (.char c :: t) = run float limit s' (.char c :: t) := by
  rw [run, run, List.foldlM_cons, List.foldlM_cons]
  exact congrArg (· >>= fun s => t.foldlM (step float limit) s) h

/-! ## Strings read back -/

theorem hexValue_escapeDigit {n : Nat} (h : n < 16) : hexValue (escapeDigit n) = some n := by
  have hall : ∀ n : Fin 16, hexValue (escapeDigit n.val) = some n.val := by decide
  exact hall ⟨n, h⟩

theorem unicodeValue_escape {n : Nat} (h : n < 32) :
    unicodeValue ['0', '0', escapeDigit (n / 16), escapeDigit (n % 16)] = n := by
  have hall : ∀ n : Fin 32,
      unicodeValue ['0', '0', escapeDigit (n.val / 16), escapeDigit (n.val % 16)] = n.val := by
    decide
  exact hall ⟨n, h⟩

theorem Point.ofNat_toNat (c : Char) : Point.ofNat c.toNat = .char c := by
  rw [Point.ofNat, if_pos (show c.toNat.isValidChar from c.valid), Char.ofNat_toNat]

theorem stringStep_plain {c : Char} (hquote : c ≠ '"') (hslash : c ≠ '\\') (hc : ¬c.toNat < 32)
    (stack : List Frame) (text : Str) :
    stringStep stack text none (.char c) = .ok ⟨stack, .string (text ++ [.char c]) none⟩ := by
  unfold stringStep
  split
  · rename_i h
    exact absurd (Point.char.inj h) hquote
  · rename_i h
    exact absurd (Point.char.inj h) hslash
  · rename_i d _ _ h
    cases Point.char.inj h
    rw [if_neg hc]
    rfl
  · rename_i h
    cases h

/-- An escaped character is read as the character. -/
theorem run_escapeChar (c : Char) (stack : List Frame) (text t : Str) :
    run float limit ⟨stack, .string text none⟩ (Str.ofChars (escapeChar c) ++ t) =
      run float limit ⟨stack, .string (text ++ [.char c]) none⟩ t := by
  have hshort : ∀ d e : Char, d ≠ 'u' → escaped d = some e →
      run float limit ⟨stack, .string text none⟩ (.char '\\' :: .char d :: t) =
        run float limit ⟨stack, .string (text ++ [.char e]) none⟩ t := by
    intro d e hd he
    have hopen : charStep float limit ⟨stack, .string text none⟩ '\\' =
        .ok ⟨stack, .escape text none⟩ := rfl
    have hclose : charStep float limit ⟨stack, .escape text none⟩ d =
        .ok ⟨stack, .string (text ++ [.char e]) none⟩ := by
      show escapeStep stack text none d = _
      rw [escapeStep, if_neg hd, he]
      rfl
    rw [run_char hopen, run_char hclose]
  unfold escapeChar
  by_cases h1 : c = '"'
  · subst h1; exact hshort _ _ (by decide) rfl
  by_cases h2 : c = '\\'
  · subst h2; exact hshort _ _ (by decide) rfl
  by_cases h3 : c = '\n'
  · subst h3; exact hshort _ _ (by decide) rfl
  by_cases h4 : c = '\r'
  · subst h4; exact hshort _ _ (by decide) rfl
  by_cases h5 : c = '\t'
  · subst h5; exact hshort _ _ (by decide) rfl
  rw [if_neg h1, if_neg h2, if_neg h3, if_neg h4, if_neg h5]
  by_cases h6 : c.toNat = 12
  · rw [if_pos h6, char_eq_of_toNat h6]; exact hshort _ _ (by decide) rfl
  by_cases h7 : c.toNat = 8
  · rw [if_neg h6, if_pos h7, char_eq_of_toNat h7]; exact hshort _ _ (by decide) rfl
  rw [if_neg h6, if_neg h7]
  by_cases h8 : c.toNat < 32
  · rw [if_pos h8]
    have hdigit : ∀ (digits : List Char) (n : Nat), n < 16 → digits.length < 3 →
        charStep float limit ⟨stack, .unicode text none digits⟩ (escapeDigit n) =
          .ok ⟨stack, .unicode text none (digits ++ [escapeDigit n])⟩ := by
      intro digits n hn hlength
      show unicodeStep stack text none digits (escapeDigit n) = _
      rw [unicodeStep, hexValue_escapeDigit hn, if_neg (by simp), if_pos hlength]
    have hlast : charStep float limit ⟨stack, .unicode text none ['0', '0', escapeDigit (c.toNat / 16)]⟩
        (escapeDigit (c.toNat % 16)) = .ok ⟨stack, .string (text ++ [.char c]) none⟩ := by
      show unicodeStep stack text none _ (escapeDigit (c.toNat % 16)) = _
      rw [unicodeStep, hexValue_escapeDigit (Nat.mod_lt _ (by decide)), if_neg (by simp),
        if_neg (by simp)]
      show Except.ok (⟨stack, unicodeEnd text none (unicodeValue ['0', '0', _, _])⟩ : State) = _
      rw [unicodeValue_escape h8, unicodeEnd]
      rw [if_neg (by omega), Point.ofNat_toNat]
    have hslash : charStep float limit ⟨stack, .string text none⟩ '\\' =
        .ok ⟨stack, .escape text none⟩ := rfl
    have hu : charStep float limit ⟨stack, .escape text none⟩ 'u' =
        .ok ⟨stack, .unicode text none []⟩ := rfl
    show run float limit _ (.char '\\' :: .char 'u' :: .char (escapeDigit 0) ::
      .char (escapeDigit 0) :: .char (escapeDigit (c.toNat / 16)) ::
        .char (escapeDigit (c.toNat % 16)) :: t) = _
    rw [run_char hslash, run_char hu, run_char (hdigit _ 0 (by decide) (by simp)),
      run_char (hdigit _ 0 (by decide) (by simp)), run_char (hdigit _ _ (by omega) (by simp))]
    exact run_char hlast t
  · rw [if_neg h8]
    exact run_char (s := ⟨stack, .string text none⟩) (stringStep_plain h1 h2 h8 stack text) t

theorem run_literalRest (s : List Char) (stack : List Frame) (text t : Str) :
    run float limit ⟨stack, .string text none⟩ (Str.ofChars (literalRest s) ++ t) =
      run float limit (endString (text ++ Str.ofChars s) stack) t := by
  induction s generalizing text with
  | nil =>
    rw [Str.ofChars_nil, List.append_nil]
    exact run_char rfl t
  | cons c s ih =>
    have hsplit : literalRest (c :: s) = escapeChar c ++ literalRest s := by
      rw [literalRest, literalRest, List.flatMap_cons, List.append_assoc]
    rw [hsplit, Str.ofChars_append, List.append_assoc, run_escapeChar, ih, Str.ofChars_cons,
      List.append_assoc, List.singleton_append]

/-! ## Numbers read back -/

theorem head_toDigits {n : Nat} (h : 0 < n) : (Nat.toDigits 10 n).head? ≠ some '0' := by
  induction n using Nat.strongRecOn with
  | ind n ih =>
    by_cases hn : n < 10
    · rw [Nat.toDigits_of_lt_base hn]
      have hall : ∀ n : Fin 10, 0 < n.val → [n.val.digitChar].head? ≠ some '0' := by decide
      exact hall ⟨n, hn⟩ h
    · rw [Nat.toDigits_of_base_le (by decide) (by omega), List.head?_append_of_ne_nil _
        Nat.toDigits_ne_nil]
      exact ih (n / 10) (by omega) (by omega)

theorem isWhole_toDigits (n : Nat) : isWhole (Nat.toDigits 10 n) = true := by
  by_cases h : n = 0
  · subst h; decide
  · have hhead := head_toDigits (Nat.pos_of_ne_zero h)
    simp [isWhole, Nat.toDigits_ne_nil, hhead]

theorem unsigned_intChars (n : Int) : unsigned (intChars n) = Nat.toDigits 10 n.natAbs := by
  cases n with
  | ofNat n =>
    show unsigned (Nat.toDigits 10 n) = Nat.toDigits 10 n
    cases hdigits : Nat.toDigits 10 n with
    | nil => rfl
    | cons c rest =>
      have hc : c ≠ '-' := fun h =>
        minus_notMem_toDigits n (hdigits ▸ h ▸ List.mem_cons_self)
      unfold unsigned
      split
      · rename_i heq
        exact absurd (List.cons.inj heq).1 hc
      · rfl
  | negSucc n => rfl

theorem signedDigits_intChars (n : Int) : signedDigits (intChars n) = n := by
  cases n with
  | ofNat n =>
    show signedDigits (Nat.toDigits 10 n) = (n : Int)
    have hvalue : (Nat.ofDigitChars 10 (Nat.toDigits 10 n) 0 : Int) = n := by
      rw [Nat.ofDigitChars_ten_toDigits]
    have hchars : ∀ c ∈ Nat.toDigits 10 n, c ≠ '-' ∧ c ≠ '+' := by
      intro c hc
      have hdigit := isDigit_toDigits hc
      constructor
      · rintro rfl
        revert hdigit
        decide
      · rintro rfl
        revert hdigit
        decide
    cases hdigits : Nat.toDigits 10 n with
    | nil => exact absurd hdigits Nat.toDigits_ne_nil
    | cons c rest =>
      rw [hdigits] at hvalue
      have hc := hchars c (hdigits ▸ List.mem_cons_self)
      unfold signedDigits
      split
      · rename_i heq
        exact absurd (List.cons.inj heq).1 hc.1
      · rename_i heq
        exact absurd (List.cons.inj heq).1 hc.2
      · exact hvalue
  | negSucc n =>
    show -(Nat.ofDigitChars 10 (Nat.toDigits 10 (n + 1)) 0 : Int) = Int.negSucc n
    rw [Nat.ofDigitChars_ten_toDigits]
    rfl

/-- An integer that Python may convert is read back. -/
theorem readNumber_intChars {n : Int} (h : (Nat.toDigits 10 n.natAbs).length ≤ 4300) :
    readNumber float (intChars n) = .ok (.int n) := by
  have hall : ∀ c ∈ Nat.toDigits 10 n.natAbs, c.isDigit = true := fun c hc => isDigit_toDigits hc
  have htake : (Nat.toDigits 10 n.natAbs).takeWhile Char.isDigit = Nat.toDigits 10 n.natAbs :=
    List.takeWhile_eq_self_iff.mpr hall
  have hdrop : (Nat.toDigits 10 n.natAbs).dropWhile Char.isDigit = [] :=
    List.dropWhile_eq_nil_iff.mpr hall
  unfold readNumber
  dsimp only
  rw [unsigned_intChars, htake, hdrop, isWhole_toDigits, if_neg (by decide), if_pos rfl,
    if_neg (by omega), signedDigits_intChars]

theorem readNumber_minus : readNumber float ['-'] = .error .value := rfl

theorem start_number {c : Char} (h : c.isDigit = true ∨ c = '-') (stack : List Frame) :
    start limit stack c = .ok ⟨stack, .number [c]⟩ := by
  have hother : ∀ d : Char, d.isDigit = false → d ≠ '-' → c ≠ d := by
    rintro d hd hminus rfl
    rcases h with h | h
    · rw [hd] at h
      cases h
    · exact hminus h
  unfold start
  split
  · exact absurd rfl (hother _ (by decide) (by decide))
  · exact absurd rfl (hother _ (by decide) (by decide))
  · exact absurd rfl (hother _ (by decide) (by decide))
  · exact absurd rfl (hother _ (by decide) (by decide))
  · exact absurd rfl (hother _ (by decide) (by decide))
  · exact absurd rfl (hother _ (by decide) (by decide))
  · exact absurd rfl (hother _ (by decide) (by decide))
  · exact absurd rfl (hother _ (by decide) (by decide))
  · rw [if_pos]
    rcases h with h | h
    · rw [h, Bool.true_or]
    · simp [h]

theorem isSpace_number {c : Char} (h : c.isDigit = true ∨ c = '-') : isSpace c = false := by
  cases hspace : isSpace c with
  | false => rfl
  | true =>
    unfold isSpace at hspace
    simp only [Bool.or_eq_true, beq_iff_eq] at hspace
    rcases hspace with ((rfl | rfl) | rfl) | rfl <;> revert h <;> decide

theorem isNumberChar_of_numeric {c : Char} (h : isNumeric c = true) : isNumberChar c = true := by
  rw [isNumberChar, h, Bool.true_or]

/-- The reader is past a value, inside a container or at the end. -/
theorem charStep_deliver (value : Decoded) (stack : List Frame) (c : Char) :
    charStep float limit (deliver value stack) c = ended (deliver value stack) c := by
  unfold deliver
  split <;> rfl

/-- The text goes on with a character that ends a number. -/
def EndsNumber (t : Str) : Prop := ∃ c rest, t = .char c :: rest ∧ isNumberChar c = false

theorem run_digits {chars : List Char} (h : ∀ c ∈ chars, isNumeric c = true) (stack : List Frame)
    (before : List Char) (t : Str) :
    run float limit ⟨stack, .number before⟩ (Str.ofChars chars ++ t) =
      run float limit ⟨stack, .number (before ++ chars)⟩ t := by
  induction chars generalizing before with
  | nil => rw [List.append_nil]; rfl
  | cons c chars ih =>
    have hc : charStep float limit ⟨stack, .number before⟩ c = .ok ⟨stack, .number (before ++ [c])⟩ := by
      show (if isNumberChar c then _ else _) = _
      rw [if_pos (isNumberChar_of_numeric (h c List.mem_cons_self))]
    rw [Str.ofChars_cons, List.cons_append, run_char hc,
      ih fun d hd => h d (List.mem_cons_of_mem c hd), List.append_assoc, List.singleton_append]

theorem run_number {chars : List Char} {value : Decoded} {t : Str}
    (hchars : ∀ c ∈ chars, isNumeric c = true)
    (hhead : ∃ c rest, chars = c :: rest ∧ (c.isDigit = true ∨ c = '-'))
    (hvalue : readNumber float chars = .ok value) (ht : EndsNumber t) (stack : List Frame) :
    run float limit ⟨stack, .value⟩ (Str.ofChars chars ++ t) =
      run float limit (deliver value stack) t := by
  obtain ⟨c, rest, rfl, hc⟩ := hhead
  obtain ⟨d, t, rfl, hd⟩ := ht
  have hfirst : charStep float limit ⟨stack, .value⟩ c = .ok ⟨stack, .number [c]⟩ := by
    show (if isSpace c then _ else start limit stack c) = _
    rw [isSpace_number hc, if_neg (by decide), start_number hc]
  have hne : ¬(c :: rest = ['-'] ∧ d = 'I') := by
    rintro ⟨hminus, -⟩
    rw [hminus, readNumber_minus] at hvalue
    cases hvalue
  have hlast : charStep float limit ⟨stack, .number (c :: rest)⟩ d = ended (deliver value stack) d := by
    show (if isNumberChar d then _ else if _ then _ else
      (readNumber float (c :: rest) >>= fun value => ended (deliver value stack) d)) = _
    rw [hd, if_neg (by decide), if_neg hne, hvalue]
    rfl
  rw [Str.ofChars_cons, List.cons_append, run_char hfirst,
    run_digits (fun e he => hchars e (List.mem_cons_of_mem c he)), List.singleton_append]
  exact run_congr (hlast.trans (charStep_deliver value stack d).symm) t

/-! ## Values read back -/

mutual

/-- A value as it is read. -/
def decoded : Value → Decoded
  | .null => .null
  | .bool b => .bool b
  | .int n => .int n
  | .float x => .float x
  | .str s => .str (.ofChars s)
  | .arr items => .arr (decodedItems items)
  | .obj fields => .obj (decodedFields fields)

def decodedItems : List Value → List Decoded
  | [] => []
  | item :: items => decoded item :: decodedItems items

def decodedFields : List (List Char × Value) → List (Str × Decoded)
  | [] => []
  | (key, value) :: fields => (.ofChars key, decoded value) :: decodedFields fields

end

mutual

/-- The containers that are open at once. -/
def nesting : Value → Nat
  | .arr items => nestingItems items + 1
  | .obj fields => nestingFields fields + 1
  | _ => 0

def nestingItems : List Value → Nat
  | [] => 0
  | item :: items => max (nesting item) (nestingItems items)

def nestingFields : List (List Char × Value) → Nat
  | [] => 0
  | (_, value) :: fields => max (nesting value) (nestingFields fields)

end

mutual

/-- The numbers of a value are read from their texts, and its objects are
dictionaries. -/
def Readable (float : List Char → Option FloatText) : Value → Prop
  | .int n => (Nat.toDigits 10 n.natAbs).length ≤ 4300
  | .float x => readNumber float x.chars = .ok (.float x)
  | .arr items => ReadableItems float items
  | .obj fields => (fields.map Prod.fst).Nodup ∧ ReadableFields float fields
  | _ => True

def ReadableItems (float : List Char → Option FloatText) : List Value → Prop
  | [] => True
  | item :: items => Readable float item ∧ ReadableItems float items

def ReadableFields (float : List Char → Option FloatText) : List (List Char × Value) → Prop
  | [] => True
  | (_, value) :: fields => Readable float value ∧ ReadableFields float fields

end

theorem Str.ofChars_injective {s t : List Char} (h : Str.ofChars s = Str.ofChars t) : s = t :=
  List.map_injective_iff.mpr (fun _ _ => Point.char.inj) h

theorem setItem_new {fields : List (Str × Decoded)} {key : Str} (h : key ∉ fields.map Prod.fst)
    (value : Decoded) : setItem fields key value = fields ++ [(key, value)] := if_neg h

/-- What follows a value ends a number, if the value is one. -/
def Follows : Value → Str → Prop
  | .int _, t => EndsNumber t
  | .float _, t => EndsNumber t
  | _, _ => True

theorem EndsNumber.follows {t : Str} (h : EndsNumber t) (v : Value) : Follows v t := by
  cases v <;> first | exact h | trivial

theorem endsNumber_char {c : Char} (h : isNumberChar c = false) (t : Str) :
    EndsNumber (.char c :: t) := ⟨c, t, rfl, h⟩

theorem class_ne (v : Value) : v.class ≠ 7 := by
  cases v with
  | bool b => cases b <;> simp [Value.class]
  | _ => simp [Value.class]

theorem headClass_space {c : Char} (h : isSpace c = true) : headClass c = 7 := by
  unfold isSpace at h
  simp only [Bool.or_eq_true, beq_iff_eq] at h
  rcases h with ((rfl | rfl) | rfl) | rfl <;> decide

/-- An array reads its first item as any value. -/
theorem run_first (v : Value) (stack : List Frame) (t : Str) :
    run float limit ⟨stack, .first⟩ (Str.ofChars (encode v) ++ t) =
      run float limit ⟨stack, .value⟩ (Str.ofChars (encode v) ++ t) := by
  obtain ⟨c, rest, hv, hc⟩ := encode_head v
  have hclose : c ≠ ']' := by
    rintro rfl
    exact class_ne v (hc.symm.trans rfl)
  have hspace : ¬isSpace c = true := fun h => class_ne v (hc.symm.trans (headClass_space h))
  rw [hv, Str.ofChars_cons, List.cons_append]
  refine run_congr ?_ _
  show (if isSpace c = true then _ else if c = ']' then _ else start limit stack c) =
    if isSpace c = true then _ else start limit stack c
  rw [if_neg hspace, if_neg hspace, if_neg hclose]

theorem intChars_head (n : Int) : ∃ c rest, intChars n = c :: rest ∧ (c.isDigit = true ∨ c = '-') := by
  cases hn : intChars n with
  | nil =>
    cases n with
    | ofNat n => exact absurd hn Nat.toDigits_ne_nil
    | negSucc n => cases hn
  | cons c rest => exact ⟨c, rest, rfl, intChars_numeric n c (hn ▸ List.mem_cons_self)⟩

/-- A stack on which a value may start. -/
def TakesValue : List Frame → Prop
  | .fields _ :: _ => False
  | _ => True

theorem endString_value {stack : List Frame} (h : TakesValue stack) (text : Str) :
    endString text stack = deliver (.str text) stack := by
  unfold endString
  split
  · exact h.elim
  · rfl

theorem run_open {c : Char} {frame : Frame} {mode : Mode} {stack : List Frame}
    (h : start limit stack c = opened limit stack frame mode) (hspace : isSpace c = false)
    (hstack : stack.length < limit) (t : Str) :
    run float limit ⟨stack, .value⟩ (.char c :: t) = run float limit ⟨frame :: stack, mode⟩ t := by
  refine run_char ?_ t
  show (if isSpace c then _ else start limit stack c) = _
  rw [hspace, if_neg (by decide), h, opened, if_pos hstack]

/-- No container opens on a full stack. -/
theorem run_open_full {c : Char} {frame : Frame} {mode : Mode} {stack : List Frame}
    (h : start limit stack c = opened limit stack frame mode) (hspace : isSpace c = false)
    (hstack : ¬stack.length < limit) (t : Str) :
    run float limit ⟨stack, .value⟩ (.char c :: t) = .error .recursion := by
  have hstep : charStep float limit ⟨stack, .value⟩ c = .error .recursion := by
    show (if isSpace c then _ else start limit stack c) = _
    rw [hspace, if_neg (by decide), h, opened, if_neg hstack]
  rw [run, List.foldlM_cons]
  show (charStep float limit ⟨stack, .value⟩ c >>= _) = _
  rw [hstep]
  rfl

theorem endsNumber_items (items : List Value) (t : Str) :
    EndsNumber (Str.ofChars (encodeItems items) ++ .char ']' :: t) := by
  cases items with
  | nil => exact endsNumber_char rfl _
  | cons item items => exact endsNumber_char rfl _

theorem endsNumber_fields (fields : List (List Char × Value)) (t : Str) :
    EndsNumber (Str.ofChars (encodeFields fields) ++ .char '}' :: t) := by
  cases fields with
  | nil => exact endsNumber_char rfl _
  | cons field fields => exact endsNumber_char rfl _

/-- A key and its colon. -/
theorem run_key {mode : Mode} {stack : List Frame} {before : List (Str × Decoded)}
    (h : charStep float limit ⟨.fields before :: stack, mode⟩ '"' =
      .ok ⟨.fields before :: stack, .string [] none⟩) (key : List Char) (t : Str) :
    run float limit ⟨.fields before :: stack, mode⟩ (Str.ofChars (literal key) ++ .char ':' :: t) =
      run float limit ⟨.member before (.ofChars key) :: stack, .value⟩ t := by
  rw [literal, Str.ofChars_cons, List.cons_append, run_char h, run_literalRest, List.nil_append]
  exact run_char rfl t

mutual

/-- **A text reads back.** The reader takes the text of a value for the value. -/
theorem run_encode (v : Value) (hv : Readable float v) {stack : List Frame} (htakes : TakesValue stack)
    (hstack : stack.length + nesting v ≤ limit) {t : Str} (ht : Follows v t) :
    run float limit ⟨stack, .value⟩ (Str.ofChars (encode v) ++ t) =
      run float limit (deliver (decoded v) stack) t := by
  match v with
  | .null =>
    exact (run_char rfl _).trans ((run_char rfl _).trans ((run_char rfl _).trans (run_char rfl t)))
  | .bool true =>
    exact (run_char rfl _).trans ((run_char rfl _).trans ((run_char rfl _).trans (run_char rfl t)))
  | .bool false =>
    exact (run_char rfl _).trans ((run_char rfl _).trans ((run_char rfl _).trans
      ((run_char rfl _).trans (run_char rfl t))))
  | .int n => exact run_number (isNumeric_intChars n) (intChars_head n) (readNumber_intChars hv) ht stack
  | .float x => exact run_number (isNumeric_float x) x.leading hv ht stack
  | .str s =>
    have hquote : charStep float limit ⟨stack, .value⟩ '"' = .ok ⟨stack, .string [] none⟩ := rfl
    rw [encode, literal, Str.ofChars_cons, List.cons_append, run_char hquote, run_literalRest,
      endString_value htakes]
    rfl
  | .arr [] =>
    have hlt : stack.length < limit := by rw [nesting] at hstack; omega
    exact (run_open rfl rfl hlt _).trans (run_char rfl t)
  | .arr (item :: items) =>
    rw [nesting, nestingItems] at hstack
    have hopen : start limit stack '[' = opened limit stack (.items []) .first := rfl
    have hitem : (Frame.items [] :: stack).length + nesting item ≤ limit := by
      rw [List.length_cons]
      omega
    have htext : Str.ofChars (encode (.arr (item :: items))) ++ t = .char '[' ::
        (Str.ofChars (encode item) ++ (Str.ofChars (encodeItems items) ++ .char ']' :: t)) := by
      rw [encode]
      simp
    rw [htext, run_open hopen rfl (by omega), run_first, run_encode item hv.1
      (show TakesValue (.items [] :: stack) from trivial) hitem
      ((endsNumber_items items t).follows item)]
    exact run_encodeItems items hv.2 [decoded item] (by omega) t
  | .obj [] =>
    have hlt : stack.length < limit := by rw [nesting] at hstack; omega
    exact (run_open rfl rfl hlt _).trans (run_char rfl t)
  | .obj ((key, value) :: fields) =>
    rw [nesting, nestingFields] at hstack
    obtain ⟨hnodup, hvalue, hfields⟩ := hv
    have hopen : start limit stack '{' = opened limit stack (.fields []) .firstKey := rfl
    have hmember : (Frame.member [] (.ofChars key) :: stack).length + nesting value ≤ limit := by
      rw [List.length_cons]
      omega
    have htext : Str.ofChars (encode (.obj ((key, value) :: fields))) ++ t = .char '{' ::
        (Str.ofChars (literal key) ++ .char ':' :: (Str.ofChars (encode value) ++
          (Str.ofChars (encodeFields fields) ++ .char '}' :: t))) := by
      rw [encode]
      simp
    rw [htext, run_open hopen rfl (by omega), run_key rfl, run_encode value hvalue
      (show TakesValue (.member [] (.ofChars key) :: stack) from trivial) hmember
      ((endsNumber_fields fields t).follows value)]
    refine run_encodeFields fields hfields [(.ofChars key, decoded value)] ?_ (by omega) t
    have hkeys := hnodup.map fun _ _ => Str.ofChars_injective
    rw [List.map_map] at hkeys
    exact hkeys

theorem run_encodeItems (items : List Value) (hitems : ReadableItems float items)
    (before : List Decoded) {stack : List Frame}
    (hstack : stack.length + nestingItems items + 1 ≤ limit) (t : Str) :
    run float limit ⟨.items before :: stack, .after⟩
        (Str.ofChars (encodeItems items) ++ .char ']' :: t) =
      run float limit (deliver (.arr (before ++ decodedItems items)) stack) t := by
  match items with
  | [] =>
    rw [decodedItems, List.append_nil]
    exact run_char rfl t
  | item :: items =>
    rw [nestingItems] at hstack
    have hitem : (Frame.items before :: stack).length + nesting item ≤ limit := by
      rw [List.length_cons]
      omega
    have hcomma : charStep float limit ⟨.items before :: stack, .after⟩ ',' =
        .ok ⟨.items before :: stack, .value⟩ := rfl
    have htext : Str.ofChars (encodeItems (item :: items)) ++ .char ']' :: t = .char ',' ::
        (Str.ofChars (encode item) ++ (Str.ofChars (encodeItems items) ++ .char ']' :: t)) := by
      rw [encodeItems]
      simp
    rw [htext, run_char hcomma, run_encode item hitems.1
      (show TakesValue (.items before :: stack) from trivial) hitem
      ((endsNumber_items items t).follows item)]
    refine (run_encodeItems items hitems.2 (before ++ [decoded item]) (by omega) t).trans ?_
    rw [decodedItems, List.append_assoc, List.singleton_append]

theorem run_encodeFields (fields : List (List Char × Value)) (hfields : ReadableFields float fields)
    (before : List (Str × Decoded)) {stack : List Frame}
    (hnodup : (before.map Prod.fst ++ fields.map fun field => Str.ofChars field.1).Nodup)
    (hstack : stack.length + nestingFields fields + 1 ≤ limit) (t : Str) :
    run float limit ⟨.fields before :: stack, .after⟩
        (Str.ofChars (encodeFields fields) ++ .char '}' :: t) =
      run float limit (deliver (.obj (before ++ decodedFields fields)) stack) t := by
  match fields with
  | [] =>
    rw [decodedFields, List.append_nil]
    exact run_char rfl t
  | (key, value) :: fields =>
    rw [nestingFields] at hstack
    have hmember : (Frame.member before (.ofChars key) :: stack).length + nesting value ≤ limit := by
      rw [List.length_cons]
      omega
    have hcomma : charStep float limit ⟨.fields before :: stack, .after⟩ ',' =
        .ok ⟨.fields before :: stack, .key⟩ := rfl
    have htext : Str.ofChars (encodeFields ((key, value) :: fields)) ++ .char '}' :: t = .char ',' ::
        (Str.ofChars (literal key) ++ .char ':' :: (Str.ofChars (encode value) ++
          (Str.ofChars (encodeFields fields) ++ .char '}' :: t))) := by
      rw [encodeFields]
      simp
    have hnew : Str.ofChars key ∉ before.map Prod.fst := by
      intro hmem
      exact (List.nodup_append.mp hnodup).2.2 _ hmem _ List.mem_cons_self rfl
    rw [htext, run_char hcomma, run_key rfl, run_encode value hfields.1
      (show TakesValue (.member before (.ofChars key) :: stack) from trivial) hmember
      ((endsNumber_fields fields t).follows value)]
    show run float limit ⟨.fields (setItem before (.ofChars key) (decoded value)) :: stack, .after⟩ _ = _
    rw [setItem_new hnew]
    refine (run_encodeFields fields hfields.2 _ ?_ (by omega) t).trans ?_
    · rw [List.map_append, List.append_assoc]
      exact hnodup
    · rw [decodedFields, List.append_assoc, List.singleton_append]

end

/-- The text of an object is read as the object. -/
theorem loads_encode {fields : List (List Char × Value)} (h : Readable float (.obj fields))
    (hlimit : nesting (.obj fields) ≤ limit) :
    loads float limit (.ofChars (encode (.obj fields))) = .ok (decoded (.obj fields)) := by
  have hstack : ([] : List Frame).length + nesting (.obj fields) ≤ limit := by
    rw [List.length_nil, Nat.zero_add]
    exact hlimit
  have hrun := run_encode (.obj fields) h (show TakesValue [] from trivial) hstack
    (show Follows (.obj fields) [] from trivial)
  rw [List.append_nil] at hrun
  rw [loads, hrun]
  rfl

/-- Opening brackets use up the stack. -/
theorem run_brackets {stack : List Frame} {mode : Mode} (hmode : mode = .value ∨ mode = .first)
    (hstack : stack.length ≤ limit) {n : Nat} (h : limit < stack.length + n) :
    run float limit ⟨stack, mode⟩ (.ofChars (List.replicate n '[')) = .error .recursion := by
  induction n generalizing stack mode with
  | zero => omega
  | succ n ih =>
    have hstep : charStep float limit ⟨stack, mode⟩ '[' =
        opened limit stack (.items []) .first := by
      rcases hmode with rfl | rfl
      · rfl
      · rfl
    rw [List.replicate_succ, Str.ofChars_cons]
    by_cases hlt : stack.length < limit
    · rw [opened, if_pos hlt] at hstep
      rw [run_char hstep]
      exact ih (.inr rfl) hlt (by rw [List.length_cons]; omega)
    · rw [opened, if_neg hlt] at hstep
      rw [run, List.foldlM_cons]
      show (charStep float limit ⟨stack, mode⟩ '[' >>= _) = _
      rw [hstep]
      rfl

theorem loads_brackets {n : Nat} (h : limit < n) :
    loads float limit (.ofChars (List.replicate n '[')) = .error .recursion := by
  have hrun : run float limit ⟨[], .value⟩ (.ofChars (List.replicate n '[')) = .error .recursion :=
    run_brackets (.inl rfl) (Nat.zero_le limit) (by rw [List.length_nil]; omega)
  rw [loads, hrun]
  rfl

/-! ## What is read is made of dictionaries -/

mutual

/-- No dictionary has a key twice. -/
def Decoded.Dict : Decoded → Prop
  | .arr items => DictItems items
  | .obj fields => (fields.map Prod.fst).Nodup ∧ DictFields fields
  | _ => True

def DictItems : List Decoded → Prop
  | [] => True
  | item :: items => item.Dict ∧ DictItems items

def DictFields : List (Str × Decoded) → Prop
  | [] => True
  | (_, value) :: fields => value.Dict ∧ DictFields fields

end

theorem dictItems_iff {items : List Decoded} : DictItems items ↔ ∀ item ∈ items, item.Dict := by
  induction items with
  | nil => simp [DictItems]
  | cons item items ih => simp [DictItems, ih]

theorem dictFields_iff {fields : List (Str × Decoded)} :
    DictFields fields ↔ ∀ field ∈ fields, field.2.Dict := by
  induction fields with
  | nil => simp [DictFields]
  | cons field fields ih => simp [DictFields, ih]

/-- The members of a dictionary that is being read. -/
def Members (fields : List (Str × Decoded)) : Prop :=
  (fields.map Prod.fst).Nodup ∧ ∀ field ∈ fields, field.2.Dict

theorem Members.setItem {fields : List (Str × Decoded)} (h : Members fields) {value : Decoded}
    (hvalue : value.Dict) (key : Str) : Members (setItem fields key value) := by
  unfold Reader.setItem
  by_cases hkey : key ∈ fields.map Prod.fst
  · rw [if_pos hkey]
    constructor
    · have hkeys : (fields.map fun field => if field.1 = key then (key, value) else field).map
          Prod.fst = fields.map Prod.fst := by
        rw [List.map_map]
        refine List.map_congr_left fun field _ => ?_
        by_cases heq : field.1 = key
        · simp [heq]
        · simp [heq]
      rw [hkeys]
      exact h.1
    · intro field hfield
      obtain ⟨old, hold, rfl⟩ := List.mem_map.mp hfield
      by_cases heq : old.1 = key
      · rw [if_pos heq]
        exact hvalue
      · rw [if_neg heq]
        exact h.2 old hold
  · rw [if_neg hkey]
    constructor
    · rw [List.map_append, List.nodup_append]
      refine ⟨h.1, List.nodup_singleton key, ?_⟩
      intro a ha b hb
      rw [List.mem_singleton.mp hb]
      rintro rfl
      exact hkey ha
    · intro field hfield
      rcases List.mem_append.mp hfield with hold | hnew
      · exact h.2 field hold
      · rw [List.mem_singleton.mp hnew]
        exact hvalue

def Frame.Dict : Frame → Prop
  | .items values => ∀ value ∈ values, value.Dict
  | .fields members => Members members
  | .member members _ => Members members

def Mode.Dict : Mode → Prop
  | .word _ result => result.Dict
  | .done result => result.Dict
  | _ => True

structure State.Dict (s : State) : Prop where
  stack : ∀ frame ∈ s.stack, frame.Dict
  mode : s.mode.Dict

/-- What a successful step leaves. -/
def Keeps (result : Except Failure State) : Prop := ∀ s, result = .ok s → s.Dict

theorem Keeps.ok {s : State} (h : s.Dict) : Keeps (.ok s) := by
  intro s' heq
  cases heq
  exact h

theorem Keeps.error (failure : Failure) : Keeps (.error failure) := by
  intro s heq
  cases heq

variable {stack : List Frame} {s : State} {value : Decoded}

theorem deliver_dict (hvalue : value.Dict) (h : ∀ frame ∈ stack, frame.Dict) :
    (deliver value stack).Dict := by
  unfold deliver
  split
  · rename_i items stack
    rw [List.forall_mem_cons] at h
    refine ⟨List.forall_mem_cons.mpr ⟨?_, h.2⟩, trivial⟩
    intro item hitem
    rcases List.mem_append.mp hitem with hold | hnew
    · exact h.1 item hold
    · rw [List.mem_singleton.mp hnew]
      exact hvalue
  · rw [List.forall_mem_cons] at h
    exact ⟨List.forall_mem_cons.mpr ⟨h.1.setItem hvalue _, h.2⟩, trivial⟩
  · exact ⟨h, hvalue⟩

theorem endString_dict (h : ∀ frame ∈ stack, frame.Dict) (text : Str) :
    (endString text stack).Dict := by
  unfold endString
  split
  · rw [List.forall_mem_cons] at h
    exact ⟨List.forall_mem_cons.mpr ⟨h.1, h.2⟩, trivial⟩
  · exact deliver_dict trivial h

theorem stringStep_dict (h : ∀ frame ∈ stack, frame.Dict) (text : Str) (high : Option Nat)
    (p : Point) : Keeps (stringStep stack text high p) := by
  unfold stringStep
  split
  · exact .ok (endString_dict h _)
  · exact .ok ⟨h, trivial⟩
  · split
    · exact .error _
    · exact .ok ⟨h, trivial⟩
  · exact .ok ⟨h, trivial⟩

theorem escapeStep_dict (h : ∀ frame ∈ stack, frame.Dict) (text : Str) (high : Option Nat)
    (c : Char) : Keeps (escapeStep stack text high c) := by
  unfold escapeStep
  split
  · exact .ok ⟨h, trivial⟩
  · split
    · exact .ok ⟨h, trivial⟩
    · exact .error _

theorem unicodeEnd_dict (text : Str) (high : Option Nat) (n : Nat) : (unicodeEnd text high n).Dict := by
  unfold unicodeEnd
  split
  · split
    · trivial
    · split <;> trivial
  · split <;> trivial

theorem unicodeStep_dict (h : ∀ frame ∈ stack, frame.Dict) (text : Str) (high : Option Nat)
    (digits : List Char) (c : Char) : Keeps (unicodeStep stack text high digits c) := by
  unfold unicodeStep
  split
  · exact .error _
  · split
    · exact .ok ⟨h, trivial⟩
    · exact .ok ⟨h, unicodeEnd_dict _ _ _⟩

theorem start_dict (h : ∀ frame ∈ stack, frame.Dict) (c : Char) : Keeps (start limit stack c) := by
  have hopened : ∀ (frame : Frame) (mode : Mode), frame.Dict → mode.Dict →
      Keeps (opened limit stack frame mode) := by
    intro frame mode hframe hmode
    unfold opened
    split
    · exact .ok ⟨List.forall_mem_cons.mpr ⟨hframe, h⟩, hmode⟩
    · exact .error _
  unfold start
  split
  · exact .ok ⟨h, trivial⟩
  · exact hopened _ _ (List.forall_mem_nil _) trivial
  · exact hopened _ _ ⟨List.nodup_nil, List.forall_mem_nil _⟩ trivial
  · exact .ok ⟨h, trivial⟩
  · exact .ok ⟨h, trivial⟩
  · exact .ok ⟨h, trivial⟩
  · exact .ok ⟨h, trivial⟩
  · exact .ok ⟨h, trivial⟩
  · split
    · exact .ok ⟨h, trivial⟩
    · exact .error _

theorem closeArray_dict (h : ∀ frame ∈ stack, frame.Dict) : Keeps (closeArray stack) := by
  unfold closeArray
  split
  · rw [List.forall_mem_cons] at h
    exact .ok (deliver_dict (dictItems_iff.mpr h.1) h.2)
  · exact .error _

theorem closeObject_dict (h : ∀ frame ∈ stack, frame.Dict) : Keeps (closeObject stack) := by
  unfold closeObject
  split
  · rw [List.forall_mem_cons] at h
    exact .ok (deliver_dict ⟨h.1.1, dictFields_iff.mpr h.1.2⟩ h.2)
  · exact .error _

theorem comma_dict (h : ∀ frame ∈ stack, frame.Dict) : Keeps (comma stack) := by
  unfold comma
  split
  · exact .ok ⟨h, trivial⟩
  · exact .ok ⟨h, trivial⟩
  · exact .error _

theorem ended_dict (h : s.Dict) (c : Char) : Keeps (ended s c) := by
  unfold ended
  split
  · exact .ok h
  · split
    · exact comma_dict h.stack
    · exact closeArray_dict h.stack
    · exact closeObject_dict h.stack
    · exact .error _

theorem readNumber_dict {chars : List Char} (h : readNumber float chars = .ok value) : value.Dict := by
  unfold readNumber at h
  dsimp only at h
  split at h
  · cases h
  · split at h
    · split at h
      · cases h
      · cases h
        trivial
    · split at h
      · cases h
        trivial
      · cases h
        trivial

theorem charStep_dict (h : s.Dict) (c : Char) : Keeps (charStep float limit s c) := by
  obtain ⟨stack, mode⟩ := s
  obtain ⟨hstack, hmode⟩ := h
  unfold charStep
  cases mode with
  | value =>
    dsimp only
    split
    · exact .ok ⟨hstack, trivial⟩
    · exact start_dict hstack c
  | first =>
    dsimp only
    split
    · exact .ok ⟨hstack, trivial⟩
    · split
      · exact closeArray_dict hstack
      · exact start_dict hstack c
  | firstKey =>
    dsimp only
    split
    · exact .ok ⟨hstack, trivial⟩
    · split
      · exact closeObject_dict hstack
      · split
        · exact .ok ⟨hstack, trivial⟩
        · exact .error _
  | key =>
    dsimp only
    split
    · exact .ok ⟨hstack, trivial⟩
    · split
      · exact .ok ⟨hstack, trivial⟩
      · exact .error _
  | colon =>
    dsimp only
    split
    · exact .ok ⟨hstack, trivial⟩
    · split
      · exact .ok ⟨hstack, trivial⟩
      · exact .error _
  | number chars =>
    dsimp only
    split
    · exact .ok ⟨hstack, trivial⟩
    · split
      · exact .ok ⟨hstack, trivial⟩
      · cases hvalue : readNumber float chars with
        | error failure => exact .error failure
        | ok value => exact ended_dict (deliver_dict (readNumber_dict hvalue) hstack) c
  | word rest value =>
    match rest with
    | [] => exact .error _
    | [d] =>
      dsimp only
      split
      · exact .ok (deliver_dict hmode hstack)
      · exact .error _
    | d :: e :: rest =>
      dsimp only
      split
      · exact .ok ⟨hstack, hmode⟩
      · exact .error _
  | string text high => exact stringStep_dict hstack _ _ _
  | escape text high => exact escapeStep_dict hstack _ _ _
  | unicode text high digits => exact unicodeStep_dict hstack _ _ _ _
  | after => exact ended_dict ⟨hstack, hmode⟩ c
  | done value => exact ended_dict ⟨hstack, hmode⟩ c

theorem step_dict (h : s.Dict) (p : Point) : Keeps (step float limit s p) := by
  unfold step
  split
  · exact charStep_dict h _
  · exact stringStep_dict h.stack _ _ _
  · exact .error _

theorem run_dict (h : s.Dict) (text : Str) : Keeps (run float limit s text) := by
  induction text generalizing s with
  | nil => exact .ok h
  | cons p text ih =>
    rw [run, List.foldlM_cons]
    cases hs : step float limit s p with
    | error failure => exact .error failure
    | ok s' => exact ih (step_dict h p s' hs)

/-- **Only dictionaries are read.** -/
theorem loads_dict {text : Str} (h : loads float limit text = .ok value) : value.Dict := by
  have hempty : State.Dict ⟨[], .value⟩ := ⟨List.forall_mem_nil _, trivial⟩
  rw [loads] at h
  cases hs : run float limit ⟨[], .value⟩ text with
  | error failure => rw [hs] at h; cases h
  | ok s =>
    rw [hs, bind_ok] at h
    have hdict := run_dict hempty text s hs
    unfold finish at h
    split at h
    · rename_i result hmode
      cases h
      have hresult := hdict.mode
      rw [hmode] at hresult
      exact hresult
    · exact readNumber_dict h
    · cases h

/-! ## What can be written in UTF-8 -/

def Point.char? : Point → Option Char
  | .char c => some c
  | .surrogate _ => none

def Str.chars? (s : Str) : Option (List Char) := s.mapM Point.char?

mutual

/-- The value, if it has no surrogate and no infinity or NaN. -/
def Decoded.value? : Decoded → Option Value
  | .null => some .null
  | .bool b => some (.bool b)
  | .int n => some (.int n)
  | .float x => some (.float x)
  | .constant _ => none
  | .str s => s.chars?.map .str
  | .arr items => (valueItems items).map .arr
  | .obj fields => (valueFields fields).map .obj

def valueItems : List Decoded → Option (List Value)
  | [] => some []
  | item :: items => do
    let item ← item.value?
    let items ← valueItems items
    pure (item :: items)

def valueFields : List (Str × Decoded) → Option (List (List Char × Value))
  | [] => some []
  | (key, value) :: fields => do
    let key ← key.chars?
    let value ← value.value?
    let fields ← valueFields fields
    pure ((key, value) :: fields)

end

theorem Str.chars?_eq_some {s : Str} {chars : List Char} :
    s.chars? = some chars → s = .ofChars chars := by
  induction s generalizing chars with
  | nil =>
    intro h
    cases h
    rfl
  | cons p s ih =>
    intro h
    rw [Str.chars?, List.mapM_cons] at h
    cases p with
    | surrogate n => cases h
    | char c =>
      cases hs : Str.chars? s with
      | none => rw [Str.chars?] at hs; simp [Point.char?, hs] at h
      | some rest =>
        have hrest := ih hs
        rw [Str.chars?] at hs
        simp [Point.char?, hs] at h
        rw [← h, Str.ofChars_cons, ← hrest]

theorem Str.chars?_ofChars (chars : List Char) : Str.chars? (.ofChars chars) = some chars := by
  induction chars with
  | nil => rfl
  | cons c chars ih =>
    rw [Str.chars?] at ih ⊢
    rw [Str.ofChars_cons, List.mapM_cons, ih]
    rfl

theorem valueFields_keys {fields : List (Str × Decoded)} {values : List (List Char × Value)}
    (h : valueFields fields = some values) :
    fields.map Prod.fst = (values.map Prod.fst).map Str.ofChars := by
  induction fields generalizing values with
  | nil =>
    cases h
    rfl
  | cons field fields ih =>
    obtain ⟨key, value⟩ := field
    rw [valueFields] at h
    obtain ⟨chars, hchars, h⟩ := Option.bind_eq_some_iff.mp h
    obtain ⟨v, hv, h⟩ := Option.bind_eq_some_iff.mp h
    obtain ⟨rest, hrest, h⟩ := Option.bind_eq_some_iff.mp h
    cases h
    rw [List.map_cons, List.map_cons, List.map_cons, ih hrest, Str.chars?_eq_some hchars]

mutual

theorem value?_dict (d : Decoded) (hd : d.Dict) {v : Value} (h : d.value? = some v) : v.Dict := by
  match d with
  | .null | .bool b | .int n | .float x =>
    rw [Decoded.value?] at h
    cases h
    trivial
  | .constant c => rw [Decoded.value?] at h; cases h
  | .str s =>
    rw [Decoded.value?] at h
    obtain ⟨chars, -, rfl⟩ := Option.map_eq_some_iff.mp h
    trivial
  | .arr items =>
    rw [Decoded.value?] at h
    obtain ⟨values, hvalues, rfl⟩ := Option.map_eq_some_iff.mp h
    exact valueItems_dict items hd hvalues
  | .obj fields =>
    rw [Decoded.value?] at h
    obtain ⟨values, hvalues, rfl⟩ := Option.map_eq_some_iff.mp h
    refine ⟨?_, valueFields_dict fields hd.2 hvalues⟩
    have hkeys := hd.1
    rw [valueFields_keys hvalues] at hkeys
    exact hkeys.of_map _

theorem valueItems_dict (items : List Decoded) (hd : DictItems items) {values : List Value}
    (h : valueItems items = some values) : Json.DictItems values := by
  match items with
  | [] => cases h; trivial
  | item :: items =>
    rw [valueItems] at h
    obtain ⟨v, hv, h⟩ := Option.bind_eq_some_iff.mp h
    obtain ⟨rest, hrest, h⟩ := Option.bind_eq_some_iff.mp h
    cases h
    exact ⟨value?_dict item hd.1 hv, valueItems_dict items hd.2 hrest⟩

theorem valueFields_dict (fields : List (Str × Decoded)) (hd : DictFields fields)
    {values : List (List Char × Value)} (h : valueFields fields = some values) :
    Json.DictFields values := by
  match fields with
  | [] => cases h; trivial
  | (key, value) :: fields =>
    rw [valueFields] at h
    obtain ⟨chars, -, h⟩ := Option.bind_eq_some_iff.mp h
    obtain ⟨v, hv, h⟩ := Option.bind_eq_some_iff.mp h
    obtain ⟨rest, hrest, h⟩ := Option.bind_eq_some_iff.mp h
    cases h
    exact ⟨value?_dict value hd.1 hv, valueFields_dict fields hd.2 hrest⟩

end

mutual

/-- A value without surrogates is itself. -/
theorem value?_decoded (v : Value) : (decoded v).value? = some v := by
  match v with
  | .null => rfl
  | .bool b => rfl
  | .int n => rfl
  | .float x => rfl
  | .str s => rw [decoded, Decoded.value?, Str.chars?_ofChars, Option.map_some]
  | .arr items => rw [decoded, Decoded.value?, valueItems_decoded items, Option.map_some]
  | .obj fields => rw [decoded, Decoded.value?, valueFields_decoded fields, Option.map_some]

theorem valueItems_decoded (items : List Value) : valueItems (decodedItems items) = some items := by
  match items with
  | [] => rfl
  | item :: items =>
    rw [decodedItems, valueItems, value?_decoded item, valueItems_decoded items]
    rfl

theorem valueFields_decoded (fields : List (List Char × Value)) :
    valueFields (decodedFields fields) = some fields := by
  match fields with
  | [] => rfl
  | (key, value) :: fields =>
    rw [decodedFields, valueFields, Str.chars?_ofChars, value?_decoded value,
      valueFields_decoded fields]
    rfl

end

/-! ## Floats that are read back -/

mutual

/-- Every float of the value is read from its text. -/
def Floats (float : List Char → Option FloatText) : Value → Prop
  | .float x => readNumber float x.chars = .ok (.float x)
  | .arr items => FloatsItems float items
  | .obj fields => FloatsFields float fields
  | _ => True

def FloatsItems (float : List Char → Option FloatText) : List Value → Prop
  | [] => True
  | item :: items => Floats float item ∧ FloatsItems float items

def FloatsFields (float : List Char → Option FloatText) : List (List Char × Value) → Prop
  | [] => True
  | (_, value) :: fields => Floats float value ∧ FloatsFields float fields

end

theorem floatsFields_iff {float : List Char → Option FloatText}
    {fields : List (List Char × Value)} :
    FloatsFields float fields ↔ ∀ field ∈ fields, Floats float field.2 := by
  induction fields with
  | nil => simp [FloatsFields]
  | cons field fields ih => rw [FloatsFields, ih, List.forall_mem_cons]

section Floats

variable {float : List Char → Option FloatText}

mutual

theorem floats_plain (v : Value) (h : v.Plain) : Floats float v := by
  match v with
  | .null | .int n | .str s => trivial
  | .bool b => trivial
  | .float x => exact h.elim
  | .arr items => exact floatsItems_plain items h
  | .obj fields => exact floatsFields_plain fields h

theorem floatsItems_plain (items : List Value) (h : PlainItems items) : FloatsItems float items := by
  match items with
  | [] => trivial
  | item :: items => exact ⟨floats_plain item h.1, floatsItems_plain items h.2⟩

theorem floatsFields_plain (fields : List (List Char × Value)) (h : PlainFields fields) :
    FloatsFields float fields := by
  match fields with
  | [] => trivial
  | (key, value) :: fields => exact ⟨floats_plain value h.1, floatsFields_plain fields h.2⟩

end

mutual

theorem floats_sorted (v : Value) (h : Floats float v) : Floats float v.sorted := by
  match v with
  | .null | .bool b | .int n | .str s => trivial
  | .float x => exact h
  | .arr items => exact floatsItems_sorted items h
  | .obj fields =>
    have hsorted := floatsFields_iff.mp (floatsFields_sorted fields h)
    exact floatsFields_iff.mpr fun field hfield => hsorted field ((perm_sort _).subset hfield)

theorem floatsItems_sorted (items : List Value) (h : FloatsItems float items) :
    FloatsItems float (sortedItems items) := by
  match items with
  | [] => trivial
  | item :: items => exact ⟨floats_sorted item h.1, floatsItems_sorted items h.2⟩

theorem floatsFields_sorted (fields : List (List Char × Value)) (h : FloatsFields float fields) :
    FloatsFields float (sortedFields fields) := by
  match fields with
  | [] => trivial
  | (key, value) :: fields => exact ⟨floats_sorted value h.1, floatsFields_sorted fields h.2⟩

end

end Floats

end Json.Reader
