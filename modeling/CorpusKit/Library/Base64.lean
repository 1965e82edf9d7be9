import Mathlib.Data.List.Basic
import Mathlib.Tactic.IntervalCases

/-! # The base64url text of a byte string

Groups of three bytes are written as four characters of the URL-safe alphabet,
without padding. Decoding reads the text back. -/

namespace Base64

/-- The character of a six-bit number. -/
def digit (n : Nat) : Char :=
  if n < 26 then Char.ofNat (65 + n)
  else if n < 52 then Char.ofNat (71 + n)
  else if n < 62 then Char.ofNat (n - 4)
  else if n = 62 then '-'
  else '_'

/-- The six-bit number of a character. -/
def value (c : Char) : Nat :=
  if 'A' ≤ c ∧ c ≤ 'Z' then c.toNat - 65
  else if 'a' ≤ c ∧ c ≤ 'z' then c.toNat - 71
  else if '0' ≤ c ∧ c ≤ '9' then c.toNat + 4
  else if c = '-' then 62
  else 63

def isDigit (c : Char) : Bool :=
  ('A' ≤ c && c ≤ 'Z') || ('a' ≤ c && c ≤ 'z') || ('0' ≤ c && c ≤ '9') || c == '-' || c == '_'

def encode : List UInt8 → List Char
  | [] => []
  | [a] => [digit (a.toNat / 4), digit (a.toNat % 4 * 16)]
  | [a, b] =>
    [digit (a.toNat / 4), digit (a.toNat % 4 * 16 + b.toNat / 16), digit (b.toNat % 16 * 4)]
  | a :: b :: c :: rest =>
    digit (a.toNat / 4) :: digit (a.toNat % 4 * 16 + b.toNat / 16) ::
      digit (b.toNat % 16 * 4 + c.toNat / 64) :: digit (c.toNat % 64) :: encode rest

def decode : List Char → List UInt8
  | p :: q :: r :: s :: rest =>
    UInt8.ofNat (value p * 4 + value q / 16) :: UInt8.ofNat (value q % 16 * 16 + value r / 4) ::
      UInt8.ofNat (value r % 4 * 64 + value s) :: decode rest
  | [p, q, r] =>
    [UInt8.ofNat (value p * 4 + value q / 16), UInt8.ofNat (value q % 16 * 16 + value r / 4)]
  | [p, q] => [UInt8.ofNat (value p * 4 + value q / 16)]
  | _ => []

theorem value_digit {n : Nat} (h : n < 64) : value (digit n) = n := by
  revert n
  decide

theorem isDigit_digit {n : Nat} (h : n < 64) : isDigit (digit n) = true := by
  revert n
  decide

theorem ofNat_eq {a : UInt8} {n : Nat} (h : n = a.toNat) : UInt8.ofNat n = a := by
  rw [h, UInt8.ofNat_toNat]

/-- Decoding reads back what encoding wrote. -/
theorem decode_encode (bytes : List UInt8) : decode (encode bytes) = bytes := by
  match bytes with
  | [] => rfl
  | [a] =>
    have ha := a.toNat_lt
    rw [encode, decode, value_digit (by omega), value_digit (by omega)]
    exact congrArg (fun a => [a]) (ofNat_eq (by omega))
  | [a, b] =>
    have ha := a.toNat_lt
    have hb := b.toNat_lt
    rw [encode, decode, value_digit (by omega), value_digit (by omega), value_digit (by omega),
      ofNat_eq (a := a) (by omega), ofNat_eq (a := b) (by omega)]
  | a :: b :: c :: rest =>
    have ha := a.toNat_lt
    have hb := b.toNat_lt
    have hc := c.toNat_lt
    rw [encode, decode, value_digit (by omega), value_digit (by omega), value_digit (by omega),
      value_digit (by omega), decode_encode rest, ofNat_eq (a := a) (by omega),
      ofNat_eq (a := b) (by omega), ofNat_eq (a := c) (by omega)]

theorem isDigit_encode (bytes : List UInt8) : ∀ c ∈ encode bytes, isDigit c = true := by
  match bytes with
  | [] => intro c hc; cases hc
  | [a] =>
    have ha := a.toNat_lt
    rw [encode]
    simp only [List.forall_mem_cons, isDigit_digit (n := a.toNat / 4) (by omega),
      isDigit_digit (n := a.toNat % 4 * 16) (by omega)]
    simp
  | [a, b] =>
    have ha := a.toNat_lt
    have hb := b.toNat_lt
    rw [encode]
    simp only [List.forall_mem_cons, isDigit_digit (n := a.toNat / 4) (by omega),
      isDigit_digit (n := a.toNat % 4 * 16 + b.toNat / 16) (by omega),
      isDigit_digit (n := b.toNat % 16 * 4) (by omega)]
    simp
  | a :: b :: c :: rest =>
    have ha := a.toNat_lt
    have hb := b.toNat_lt
    have hc := c.toNat_lt
    rw [encode]
    simp only [List.forall_mem_cons, isDigit_digit (n := a.toNat / 4) (by omega),
      isDigit_digit (n := a.toNat % 4 * 16 + b.toNat / 16) (by omega),
      isDigit_digit (n := b.toNat % 16 * 4 + c.toNat / 64) (by omega),
      isDigit_digit (n := c.toNat % 64) (by omega), true_and]
    exact isDigit_encode rest

/-- Four characters hold three bytes. -/
theorem length_encode (bytes : List UInt8) : (encode bytes).length = (4 * bytes.length + 2) / 3 := by
  match bytes with
  | [] => rfl
  | [a] => simp [encode]
  | [a, b] => simp [encode]
  | a :: b :: c :: rest =>
    rw [encode]
    simp only [List.length_cons, length_encode rest]
    omega

theorem toNat_lt_of_isDigit {c : Char} (h : isDigit c = true) : c.toNat < 128 := by
  simp only [isDigit, Bool.or_eq_true, Bool.and_eq_true, decide_eq_true_eq, beq_iff_eq] at h
  rcases h with (((⟨-, h⟩ | ⟨-, h⟩) | ⟨-, h⟩) | rfl) | rfl
  · exact lt_of_le_of_lt h (by decide)
  · exact lt_of_le_of_lt h (by decide)
  · exact lt_of_le_of_lt h (by decide)
  · decide
  · decide

end Base64
