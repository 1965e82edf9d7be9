import Mathlib.Data.List.Sort
import Mathlib.Data.String.Basic

/-! # Canonical JSON

JSON values and the compact text `json.dumps` writes for them with
`ensure_ascii=False` and separators without blanks. `sorted` puts the fields of
every object in the order `sort_keys` asks for. The text determines the value:
no two values have the same encoding, whatever follows it. -/

namespace Json

/-- The text of a finite float: number characters, one of which no integer has. -/
structure FloatText where
  chars : List Char
  numeric : ∀ c ∈ chars, c.isDigit ∨ c = '-' ∨ c = '+' ∨ c = '.' ∨ c = 'e'
  fractional : '.' ∈ chars ∨ 'e' ∈ chars
  leading : ∃ c rest, chars = c :: rest ∧ (c.isDigit ∨ c = '-')
  deriving DecidableEq

/-- A JSON value; an object lists its fields. -/
inductive Value
  | null
  | bool (value : Bool)
  | int (value : Int)
  | float (value : FloatText)
  | str (value : List Char)
  | arr (items : List Value)
  | obj (fields : List (List Char × Value))

/-! ## Encoding -/

def intChars : Int → List Char
  | .ofNat n => Nat.toDigits 10 n
  | .negSucc n => '-' :: Nat.toDigits 10 (n + 1)

/-- The lowercase hexadecimal digit of a number below sixteen. -/
def escapeDigit (n : Nat) : Char :=
  if n < 10 then Char.ofNat (48 + n) else Char.ofNat (87 + n)

def escapeChar (c : Char) : List Char :=
  if c = '"' then ['\\', '"']
  else if c = '\\' then ['\\', '\\']
  else if c = '\n' then ['\\', 'n']
  else if c = '\r' then ['\\', 'r']
  else if c = '\t' then ['\\', 't']
  else if c.toNat = 12 then ['\\', 'f']
  else if c.toNat = 8 then ['\\', 'b']
  else if c.toNat < 32 then
    ['\\', 'u', '0', '0', escapeDigit (c.toNat / 16), escapeDigit (c.toNat % 16)]
  else [c]

/-- A string literal up to and including its closing quote. -/
def literalRest (s : List Char) : List Char := s.flatMap escapeChar ++ ['"']

def literal (s : List Char) : List Char := '"' :: literalRest s

mutual

def encode : Value → List Char
  | .null => ['n', 'u', 'l', 'l']
  | .bool true => ['t', 'r', 'u', 'e']
  | .bool false => ['f', 'a', 'l', 's', 'e']
  | .int n => intChars n
  | .float x => x.chars
  | .str s => literal s
  | .arr [] => ['[', ']']
  | .arr (item :: items) => '[' :: (encode item ++ encodeItems items ++ [']'])
  | .obj [] => ['{', '}']
  | .obj ((key, value) :: fields) =>
    '{' :: (literal key ++ ':' :: encode value ++ encodeFields fields ++ ['}'])

def encodeItems : List Value → List Char
  | [] => []
  | item :: items => ',' :: (encode item ++ encodeItems items)

def encodeFields : List (List Char × Value) → List Char
  | [] => []
  | (key, value) :: fields => ',' :: (literal key ++ ':' :: encode value ++ encodeFields fields)

end

/-! ## Sorted fields -/

mutual

/-- The value as `json.loads` reads it back from its text with sorted keys. -/
def Value.sorted : Value → Value
  | .null => .null
  | .bool b => .bool b
  | .int n => .int n
  | .float x => .float x
  | .str s => .str s
  | .arr items => .arr (sortedItems items)
  | .obj fields => .obj ((sortedFields fields).insertionSort fun a b => a.1 ≤ b.1)

def sortedItems : List Value → List Value
  | [] => []
  | item :: items => item.sorted :: sortedItems items

def sortedFields : List (List Char × Value) → List (List Char × Value)
  | [] => []
  | (key, value) :: fields => (key, value.sorted) :: sortedFields fields

end

/-- `json.dumps(value, ensure_ascii=False, separators=(",", ":"), sort_keys=True)`. -/
def dumps (value : Value) : List Char := encode value.sorted

example : dumps (.obj [(['b'], .arr [.int (-1), .null]), (['a'], .str ['"', '\t'])]) =
    "\x7b\"a\":\"\\\"\\t\",\"b\":[-1,null]\x7d".toList := by
  decide

/-! ## The text determines the value -/

def isNumeric (c : Char) : Bool := c.isDigit || c == '-' || c == '+' || c == '.' || c == 'e'

/-- What follows a value never continues a number. -/
def Stops (r : List Char) : Prop := ∀ c ∈ r.head?, isNumeric c = false

theorem stops_cons {c : Char} {r : List Char} (h : isNumeric c = false) : Stops (c :: r) := by
  intro d hd
  cases hd
  exact h

theorem numeric_append_inj {l l' r r' : List Char} (hl : ∀ c ∈ l, isNumeric c = true)
    (hl' : ∀ c ∈ l', isNumeric c = true) (hr : Stops r) (hr' : Stops r')
    (h : l ++ r = l' ++ r') : l = l' ∧ r = r' := by
  induction l generalizing l' with
  | nil =>
    cases l' with
    | nil => exact ⟨rfl, h⟩
    | cons c l' =>
      have hc := hl' c List.mem_cons_self
      rw [List.nil_append] at h
      rw [hr c (by rw [h]; rfl)] at hc
      cases hc
  | cons c l ih =>
    cases l' with
    | nil =>
      have hc := hl c List.mem_cons_self
      rw [List.nil_append] at h
      rw [hr' c (by rw [← h]; rfl)] at hc
      cases hc
    | cons d l' =>
      injection h with hhead htail
      obtain ⟨rfl, rfl⟩ := ih (fun x hx => hl x (List.mem_cons_of_mem c hx))
        (fun x hx => hl' x (List.mem_cons_of_mem d hx)) htail
      exact ⟨by rw [hhead], rfl⟩

/-! ### Numbers -/

theorem toDigits_inj {m n : Nat} (h : Nat.toDigits 10 m = Nat.toDigits 10 n) : m = n := by
  have hm := Nat.ofDigitChars_ten_toDigits (n := m)
  rw [h, Nat.ofDigitChars_ten_toDigits] at hm
  exact hm.symm

theorem isDigit_toDigits {n : Nat} {c : Char} (h : c ∈ Nat.toDigits 10 n) : c.isDigit = true :=
  Nat.isDigit_of_mem_toDigits (by decide) (by decide) h

theorem minus_notMem_toDigits (n : Nat) : '-' ∉ Nat.toDigits 10 n := by
  intro h
  have := isDigit_toDigits h
  revert this
  decide

theorem intChars_inj {m n : Int} (h : intChars m = intChars n) : m = n := by
  cases m with
  | ofNat m =>
    cases n with
    | ofNat n => exact congrArg Int.ofNat (toDigits_inj h)
    | negSucc n =>
      simp only [intChars] at h
      exact absurd (h ▸ List.mem_cons_self) (minus_notMem_toDigits m)
  | negSucc m =>
    cases n with
    | ofNat n =>
      simp only [intChars] at h
      exact absurd (h ▸ List.mem_cons_self) (minus_notMem_toDigits n)
    | negSucc n =>
      simp only [intChars, List.cons.injEq, true_and] at h
      have := toDigits_inj h
      rw [Nat.add_right_cancel this]

theorem intChars_numeric (n : Int) : ∀ c ∈ intChars n, c.isDigit = true ∨ c = '-' := by
  intro c hc
  cases n with
  | ofNat n => exact .inl (isDigit_toDigits hc)
  | negSucc n =>
    rcases List.mem_cons.mp hc with rfl | hc
    · exact .inr rfl
    · exact .inl (isDigit_toDigits hc)

theorem isNumeric_intChars (n : Int) : ∀ c ∈ intChars n, isNumeric c = true := by
  intro c hc
  unfold isNumeric
  rcases intChars_numeric n c hc with h | rfl
  · rw [h]; rfl
  · rfl

theorem isNumeric_float (x : FloatText) : ∀ c ∈ x.chars, isNumeric c = true := by
  intro c hc
  unfold isNumeric
  rcases x.numeric c hc with h | rfl | rfl | rfl | rfl
  · rw [h]; rfl
  · rfl
  · rfl
  · rfl
  · rfl

theorem intChars_ne_float (n : Int) (x : FloatText) : intChars n ≠ x.chars := by
  intro h
  have hint := intChars_numeric n
  rw [h] at hint
  rcases x.fractional with hdot | hexp
  · rcases hint _ hdot with hc | hc <;> revert hc <;> decide
  · rcases hint _ hexp with hc | hc <;> revert hc <;> decide

/-! ### Strings -/

def digitValue (c : Char) : Nat := if c.toNat < 58 then c.toNat - 48 else c.toNat - 87

/-- The first character of a literal's rest, read back. -/
def unescape : List Char → Option (Char × List Char)
  | '\\' :: '"' :: t => some ('"', t)
  | '\\' :: '\\' :: t => some ('\\', t)
  | '\\' :: 'n' :: t => some ('\n', t)
  | '\\' :: 'r' :: t => some ('\r', t)
  | '\\' :: 't' :: t => some ('\t', t)
  | '\\' :: 'f' :: t => some (Char.ofNat 12, t)
  | '\\' :: 'b' :: t => some (Char.ofNat 8, t)
  | '\\' :: 'u' :: '0' :: '0' :: a :: b :: t =>
    some (Char.ofNat (16 * digitValue a + digitValue b), t)
  | c :: t => some (c, t)
  | [] => none

theorem char_eq_of_toNat {c : Char} {n : Nat} (h : c.toNat = n) : c = Char.ofNat n := by
  rw [← h, Char.ofNat_toNat]

theorem digitValue_escape {n : Nat} (h : n < 32) :
    16 * digitValue (escapeDigit (n / 16)) + digitValue (escapeDigit (n % 16)) = n := by
  have hall : ∀ n : Fin 32,
      16 * digitValue (escapeDigit (n.val / 16)) + digitValue (escapeDigit (n.val % 16)) = n.val := by
    decide
  exact hall ⟨n, h⟩

theorem unescape_escapeChar (c : Char) (t : List Char) :
    unescape (escapeChar c ++ t) = some (c, t) := by
  unfold escapeChar
  by_cases h1 : c = '"'
  · subst h1; rfl
  by_cases h2 : c = '\\'
  · subst h2; rfl
  by_cases h3 : c = '\n'
  · subst h3; rfl
  by_cases h4 : c = '\r'
  · subst h4; rfl
  by_cases h5 : c = '\t'
  · subst h5; rfl
  rw [if_neg h1, if_neg h2, if_neg h3, if_neg h4, if_neg h5]
  by_cases h6 : c.toNat = 12
  · rw [if_pos h6, char_eq_of_toNat h6]; rfl
  by_cases h7 : c.toNat = 8
  · rw [if_neg h6, if_pos h7, char_eq_of_toNat h7]; rfl
  rw [if_neg h6, if_neg h7]
  by_cases h8 : c.toNat < 32
  · rw [if_pos h8]
    show some (Char.ofNat (16 * digitValue (escapeDigit (c.toNat / 16)) +
      digitValue (escapeDigit (c.toNat % 16))), t) = some (c, t)
    rw [digitValue_escape h8, Char.ofNat_toNat]
  · rw [if_neg h8]
    show unescape (c :: t) = some (c, t)
    unfold unescape
    split <;> simp_all

theorem escapeChar_append_inj {c d : Char} {t u : List Char}
    (h : escapeChar c ++ t = escapeChar d ++ u) : c = d ∧ t = u := by
  have hc := unescape_escapeChar c t
  rw [h, unescape_escapeChar] at hc
  simpa [eq_comm] using hc

theorem escapeChar_head (c : Char) (t r : List Char) : escapeChar c ++ t ≠ '"' :: r := by
  intro h
  have hc := unescape_escapeChar c t
  rw [h] at hc
  have hquote : c = '"' ∧ r = t := by
    have : unescape ('"' :: r) = some ('"', r) := rfl
    rw [this] at hc
    simpa [eq_comm] using hc
  rw [hquote.1] at h
  exact absurd h (by simp [escapeChar])

theorem literalRest_append_inj {s s' r r' : List Char}
    (h : literalRest s ++ r = literalRest s' ++ r') : s = s' ∧ r = r' := by
  induction s generalizing s' with
  | nil =>
    cases s' with
    | nil => simpa [literalRest] using h
    | cons c s' =>
      simp only [literalRest, List.flatMap_nil, List.nil_append, List.flatMap_cons,
        List.append_assoc, List.cons_append] at h
      exact absurd h.symm (escapeChar_head c _ _)
  | cons c s ih =>
    cases s' with
    | nil =>
      simp only [literalRest, List.flatMap_nil, List.nil_append, List.flatMap_cons,
        List.append_assoc, List.cons_append] at h
      exact absurd h (escapeChar_head c _ _)
    | cons d s' =>
      simp only [literalRest, List.flatMap_cons, List.append_assoc] at h
      obtain ⟨rfl, htail⟩ := escapeChar_append_inj h
      have hrest : literalRest s ++ r = literalRest s' ++ r' := by
        simpa only [literalRest, List.append_assoc] using htail
      obtain ⟨rfl, hr⟩ := ih hrest
      exact ⟨rfl, hr⟩

/-! ### Values -/

/-- Which kind of value a text starts. -/
def headClass (c : Char) : Nat :=
  if c = 'n' then 0 else if c = 't' then 1 else if c = 'f' then 2
  else if c.isDigit || c == '-' then 3
  else if c = '"' then 4 else if c = '[' then 5 else if c = '{' then 6 else 7

def Value.class : Value → Nat
  | .null => 0
  | .bool true => 1
  | .bool false => 2
  | .int _ => 3
  | .float _ => 3
  | .str _ => 4
  | .arr _ => 5
  | .obj _ => 6

theorem headClass_digit {c : Char} (h : c.isDigit = true ∨ c = '-') : headClass c = 3 := by
  have hne : c ≠ 'n' ∧ c ≠ 't' ∧ c ≠ 'f' := by
    refine ⟨?_, ?_, ?_⟩ <;> (rintro rfl; revert h; decide)
  unfold headClass
  rw [if_neg hne.1, if_neg hne.2.1, if_neg hne.2.2]
  rcases h with h | rfl
  · rw [h]; rfl
  · rfl

theorem encode_head (v : Value) : ∃ c t, encode v = c :: t ∧ headClass c = v.class := by
  cases v with
  | null => exact ⟨_, _, by rw [encode], rfl⟩
  | bool b => cases b <;> exact ⟨_, _, by rw [encode], rfl⟩
  | int n =>
    rw [encode]
    cases hn : intChars n with
    | nil =>
      cases n with
      | ofNat n => exact absurd hn Nat.toDigits_ne_nil
      | negSucc n => cases hn
    | cons c t =>
      exact ⟨c, t, rfl, headClass_digit (intChars_numeric n c (hn ▸ List.mem_cons_self))⟩
  | float x =>
    rw [encode]
    obtain ⟨c, t, hx, hc⟩ := x.leading
    exact ⟨c, t, hx, headClass_digit hc⟩
  | str s => exact ⟨_, _, by rw [encode, literal], rfl⟩
  | arr items => cases items <;> exact ⟨_, _, by rw [encode], rfl⟩
  | obj fields =>
    cases fields with
    | nil => exact ⟨_, _, by rw [encode], rfl⟩
    | cons field fields => exact ⟨_, _, by rw [encode], rfl⟩

theorem class_eq {v w : Value} {r r' : List Char} (h : encode v ++ r = encode w ++ r') :
    v.class = w.class := by
  obtain ⟨c, t, hv, hc⟩ := encode_head v
  obtain ⟨d, u, hw, hd⟩ := encode_head w
  rw [hv, hw, List.cons_append, List.cons_append, List.cons.injEq] at h
  rw [← hc, ← hd, h.1]

theorem encode_ne_close {v : Value} {c : Char} {r r' : List Char} (hc : headClass c = 7) :
    encode v ++ r ≠ c :: r' := by
  intro h
  obtain ⟨d, t, hv, hd⟩ := encode_head v
  rw [hv, List.cons_append, List.cons.injEq] at h
  rw [h.1, hc] at hd
  cases v with
  | bool b => cases b <;> cases hd
  | _ => cases hd

theorem encodeItems_stops {items : List Value} {r : List Char} :
    Stops (encodeItems items ++ ']' :: r) := by
  cases items with
  | nil => exact stops_cons rfl
  | cons item items => rw [encodeItems]; exact stops_cons rfl

theorem encodeFields_stops {fields : List (List Char × Value)} {r : List Char} :
    Stops (encodeFields fields ++ '}' :: r) := by
  cases fields with
  | nil => exact stops_cons rfl
  | cons field fields => rw [encodeFields]; exact stops_cons rfl

mutual

/-- **The text determines the value.** Two values whose texts agree up to where
they stop are the same value. -/
theorem encode_append_inj (v w : Value) {r r' : List Char} (hr : Stops r) (hr' : Stops r')
    (h : encode v ++ r = encode w ++ r') : v = w ∧ r = r' := by
  have hclass := class_eq h
  match v, w, hclass, h with
  | .null, .null, _, h => exact ⟨rfl, by simpa [encode] using h⟩
  | .bool true, .bool true, _, h => exact ⟨rfl, by simpa [encode] using h⟩
  | .bool false, .bool false, _, h => exact ⟨rfl, by simpa [encode] using h⟩
  | .int m, .int n, _, h =>
    rw [encode, encode] at h
    obtain ⟨hmn, rfl⟩ := numeric_append_inj (isNumeric_intChars m) (isNumeric_intChars n) hr hr' h
    exact ⟨by rw [intChars_inj hmn], rfl⟩
  | .int m, .float y, _, h =>
    rw [encode, encode] at h
    exact absurd (numeric_append_inj (isNumeric_intChars m) (isNumeric_float y) hr hr' h).1
      (intChars_ne_float m y)
  | .float x, .int n, _, h =>
    rw [encode, encode] at h
    exact absurd (numeric_append_inj (isNumeric_float x) (isNumeric_intChars n) hr hr' h).1.symm
      (intChars_ne_float n x)
  | .float x, .float y, _, h =>
    rw [encode, encode] at h
    obtain ⟨hxy, rfl⟩ := numeric_append_inj (isNumeric_float x) (isNumeric_float y) hr hr' h
    refine ⟨?_, rfl⟩
    cases x; cases y
    cases hxy
    rfl
  | .str s, .str s', _, h =>
    rw [encode, encode, literal, literal, List.cons_append, List.cons_append,
      List.cons.injEq] at h
    obtain ⟨rfl, rfl⟩ := literalRest_append_inj h.2
    exact ⟨rfl, rfl⟩
  | .arr [], .arr [], _, h => exact ⟨rfl, by simpa [encode] using h⟩
  | .arr [], .arr (y :: ys), _, h =>
    simp only [encode, List.cons_append, List.append_assoc, List.nil_append, List.cons.injEq,
      true_and] at h
    exact absurd h.symm (encode_ne_close rfl)
  | .arr (x :: xs), .arr [], _, h =>
    simp only [encode, List.cons_append, List.append_assoc, List.nil_append, List.cons.injEq,
      true_and] at h
    exact absurd h (encode_ne_close rfl)
  | .arr (x :: xs), .arr (y :: ys), _, h =>
    simp only [encode, List.cons_append, List.append_assoc, List.nil_append, List.cons.injEq,
      true_and] at h
    obtain ⟨rfl, hitems⟩ := encode_append_inj x y encodeItems_stops encodeItems_stops h
    obtain ⟨rfl, rfl⟩ := encodeItems_append_inj xs ys hitems
    exact ⟨rfl, rfl⟩
  | .obj [], .obj [], _, h => exact ⟨rfl, by simpa [encode] using h⟩
  | .obj [], .obj ((key, y) :: ys), _, h =>
    simp only [encode, literal, List.cons_append, List.append_assoc, List.nil_append,
      List.cons.injEq, true_and] at h
    exact absurd h.1 (by decide)
  | .obj ((key, x) :: xs), .obj [], _, h =>
    simp only [encode, literal, List.cons_append, List.append_assoc, List.nil_append,
      List.cons.injEq, true_and] at h
    exact absurd h.1 (by decide)
  | .obj ((key, x) :: xs), .obj ((key', y) :: ys), _, h =>
    simp only [encode, literal, List.cons_append, List.append_assoc, List.nil_append,
      List.cons.injEq, true_and] at h
    obtain ⟨rfl, hcolon⟩ := literalRest_append_inj h
    simp only [List.cons.injEq, true_and] at hcolon
    obtain ⟨rfl, hfields⟩ := encode_append_inj x y encodeFields_stops encodeFields_stops hcolon
    obtain ⟨rfl, rfl⟩ := encodeFields_append_inj xs ys hfields
    exact ⟨rfl, rfl⟩

theorem encodeItems_append_inj (xs ys : List Value) {r r' : List Char}
    (h : encodeItems xs ++ ']' :: r = encodeItems ys ++ ']' :: r') : xs = ys ∧ r = r' := by
  match xs, ys, h with
  | [], [], h => exact ⟨rfl, by simpa [encodeItems] using h⟩
  | [], y :: ys, h => simp [encodeItems] at h
  | x :: xs, [], h => simp [encodeItems] at h
  | x :: xs, y :: ys, h =>
    simp only [encodeItems, List.cons_append, List.append_assoc, List.cons.injEq, true_and] at h
    obtain ⟨rfl, hitems⟩ := encode_append_inj x y encodeItems_stops encodeItems_stops h
    obtain ⟨rfl, rfl⟩ := encodeItems_append_inj xs ys hitems
    exact ⟨rfl, rfl⟩

theorem encodeFields_append_inj (xs ys : List (List Char × Value)) {r r' : List Char}
    (h : encodeFields xs ++ '}' :: r = encodeFields ys ++ '}' :: r') : xs = ys ∧ r = r' := by
  match xs, ys, h with
  | [], [], h => exact ⟨rfl, by simpa [encodeFields] using h⟩
  | [], (key, y) :: ys, h => simp [encodeFields] at h
  | (key, x) :: xs, [], h => simp [encodeFields] at h
  | (key, x) :: xs, (key', y) :: ys, h =>
    simp only [encodeFields, literal, List.cons_append, List.append_assoc, List.cons.injEq,
      true_and] at h
    obtain ⟨rfl, hcolon⟩ := literalRest_append_inj h
    simp only [List.cons.injEq, true_and] at hcolon
    obtain ⟨rfl, hfields⟩ := encode_append_inj x y encodeFields_stops encodeFields_stops hcolon
    obtain ⟨rfl, rfl⟩ := encodeFields_append_inj xs ys hfields
    exact ⟨rfl, rfl⟩

end

theorem encode_injective {v w : Value} (h : encode v = encode w) : v = w := by
  have hstops : Stops [] := by intro c hc; cases hc
  exact (encode_append_inj v w hstops hstops (by rw [h])).1

/-- Equal canonical texts are texts of the same value, up to the order of fields. -/
theorem dumps_injective {v w : Value} (h : dumps v = dumps w) : v.sorted = w.sorted :=
  encode_injective h

/-! ## Sorting twice -/

theorem sortedFields_eq_map (fields : List (List Char × Value)) :
    sortedFields fields = fields.map fun field => (field.1, field.2.sorted) := by
  induction fields with
  | nil => rfl
  | cons field fields ih => rw [sortedFields, ih]; rfl

theorem sortedFields_sort (fields : List (List Char × Value)) :
    sortedFields (fields.insertionSort fun a b => a.1 ≤ b.1) =
      (sortedFields fields).insertionSort fun a b => a.1 ≤ b.1 := by
  rw [sortedFields_eq_map, sortedFields_eq_map]
  exact List.map_insertionSort (fun a b : List Char × Value => a.1 ≤ b.1)
    (fun a b : List Char × Value => a.1 ≤ b.1) (fun field => (field.1, field.2.sorted)) fields
    fun a _ b _ => Iff.rfl

theorem sort_sort (fields : List (List Char × Value)) :
    ((fields.insertionSort fun a b => a.1 ≤ b.1).insertionSort fun a b => a.1 ≤ b.1) =
      fields.insertionSort fun a b => a.1 ≤ b.1 := by
  have : Std.Total fun a b : List Char × Value => a.1 ≤ b.1 := ⟨fun a b => le_total a.1 b.1⟩
  have : IsTrans (List Char × Value) fun a b => a.1 ≤ b.1 := ⟨fun a b c => le_trans⟩
  exact List.Pairwise.insertionSort_eq (List.pairwise_insertionSort _ fields)

mutual

/-- What was read back from sorted text is sorted. -/
theorem sorted_sorted (v : Value) : v.sorted.sorted = v.sorted := by
  match v with
  | .null => simp only [Value.sorted]
  | .bool b => simp only [Value.sorted]
  | .int n => simp only [Value.sorted]
  | .float x => simp only [Value.sorted]
  | .str s => simp only [Value.sorted]
  | .arr items =>
    simp only [Value.sorted]
    rw [sortedItems_sorted items]
  | .obj fields =>
    simp only [Value.sorted]
    rw [sortedFields_sort, sortedFields_sorted fields, sort_sort]

theorem sortedItems_sorted (items : List Value) :
    sortedItems (sortedItems items) = sortedItems items := by
  match items with
  | [] => rfl
  | item :: items =>
    simp only [sortedItems]
    rw [sorted_sorted item, sortedItems_sorted items]

theorem sortedFields_sorted (fields : List (List Char × Value)) :
    sortedFields (sortedFields fields) = sortedFields fields := by
  match fields with
  | [] => rfl
  | (key, value) :: fields =>
    simp only [sortedFields]
    rw [sorted_sorted value, sortedFields_sorted fields]

end

end Json
