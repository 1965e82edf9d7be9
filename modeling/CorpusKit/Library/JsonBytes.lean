import CorpusKit.Library.JsonReader

/-! # JSON in bytes

`json.loads` of bytes: the encoding is told from the first bytes, and surrogates
pass through the codecs. -/

namespace Json.Reader

inductive Encoding
  | utf8
  | utf8Sig
  | utf16
  | utf16Le
  | utf16Be
  | utf32
  | utf32Le
  | utf32Be
  deriving DecidableEq, Repr

/-- `detect_encoding`. -/
def detectEncoding (bytes : List UInt8) : Encoding :=
  if [0, 0, 0xFE, 0xFF].isPrefixOf bytes || [0xFF, 0xFE, 0, 0].isPrefixOf bytes then .utf32
  else if [0xFE, 0xFF].isPrefixOf bytes || [0xFF, 0xFE].isPrefixOf bytes then .utf16
  else if [0xEF, 0xBB, 0xBF].isPrefixOf bytes then .utf8Sig
  else
    match bytes with
    | [a, b] => if a = 0 then .utf16Be else if b = 0 then .utf16Le else .utf8
    | a :: b :: c :: d :: _ =>
      if a = 0 then if b = 0 then .utf32Be else .utf16Be
      else if b = 0 then if c = 0 ∧ d = 0 then .utf32Le else .utf16Le
      else .utf8
    | _ => .utf8

/-- Code points one after the other; `next` says how many bytes after the first
one takes. -/
def decodeUnits (next : UInt8 → List UInt8 → Option (Point × Nat)) : List UInt8 → Option Str
  | [] => some []
  | b :: rest =>
    match next b rest with
    | none => none
    | some (p, more) => (decodeUnits next (rest.drop more)).map (p :: ·)
termination_by bytes => bytes.length
decreasing_by
  rw [List.length_drop, List.length_cons]
  omega

/-- The continuation bytes of a UTF-8 sequence. -/
def continued : Nat → Nat → List UInt8 → Option Nat
  | 0, value, _ => some value
  | _ + 1, _, [] => none
  | more + 1, value, b :: rest =>
    if 0x80 ≤ b.toNat ∧ b.toNat < 0xC0 then continued more (64 * value + (b.toNat - 0x80)) rest
    else none

def utf8Sequence (more lead least : Nat) (rest : List UInt8) : Option (Point × Nat) := do
  let value ← continued more lead rest
  if least ≤ value ∧ value < 0x110000 then some (.ofNat value, more) else none

def utf8Next (b : UInt8) (rest : List UInt8) : Option (Point × Nat) :=
  if b.toNat < 0x80 then some (.ofNat b.toNat, 0)
  else if b.toNat < 0xC0 then none
  else if b.toNat < 0xE0 then utf8Sequence 1 (b.toNat - 0xC0) 0x80 rest
  else if b.toNat < 0xF0 then utf8Sequence 2 (b.toNat - 0xE0) 0x800 rest
  else if b.toNat < 0xF8 then utf8Sequence 3 (b.toNat - 0xF0) 0x10000 rest
  else none

/-- The number in some bytes. -/
def unit (big : Bool) (bytes : List UInt8) : Nat :=
  (if big then bytes else bytes.reverse).foldl (fun n b => 256 * n + b.toNat) 0

def utf16Next (big : Bool) (a : UInt8) : List UInt8 → Option (Point × Nat)
  | [] => none
  | b :: c :: d :: _ =>
    if (0xD800 ≤ unit big [a, b] ∧ unit big [a, b] < 0xDC00) ∧
        0xDC00 ≤ unit big [c, d] ∧ unit big [c, d] < 0xE000 then
      some (.ofNat (0x10000 + (unit big [a, b] - 0xD800) * 0x400 + (unit big [c, d] - 0xDC00)), 3)
    else some (.ofNat (unit big [a, b]), 1)
  | b :: _ => some (.ofNat (unit big [a, b]), 1)

def utf32Next (big : Bool) (a : UInt8) : List UInt8 → Option (Point × Nat)
  | b :: c :: d :: _ =>
    if unit big [a, b, c, d] < 0x110000 then some (.ofNat (unit big [a, b, c, d]), 3) else none
  | _ => none

/-- `bytes.decode(encoding, "surrogatepass")`, where a mark at the start tells the
order of the bytes. -/
def decodeBytes (bytes : List UInt8) : Encoding → Option Str
  | .utf8 => decodeUnits utf8Next bytes
  | .utf8Sig => decodeUnits utf8Next (bytes.drop 3)
  | .utf16 => decodeUnits (utf16Next (bytes.head? == some 0xFE)) (bytes.drop 2)
  | .utf16Le => decodeUnits (utf16Next false) bytes
  | .utf16Be => decodeUnits (utf16Next true) bytes
  | .utf32 => decodeUnits (utf32Next (bytes.head? == some 0)) (bytes.drop 4)
  | .utf32Le => decodeUnits (utf32Next false) bytes
  | .utf32Be => decodeUnits (utf32Next true) bytes

/-- `json.loads` of bytes; a `UnicodeDecodeError` is a `ValueError`. -/
def loadsBytes (float : List Char → Option FloatText) (limit : Nat) (bytes : List UInt8) :
    Except Failure Decoded :=
  match decodeBytes bytes (detectEncoding bytes) with
  | none => .error .value
  | some text => loads float limit text

variable {float : List Char → Option FloatText} {limit : Nat}

theorem loadsBytes_dict {bytes : List UInt8} {value : Decoded}
    (h : loadsBytes float limit bytes = .ok value) : value.Dict := by
  unfold loadsBytes at h
  split at h
  · cases h
  · exact loads_dict h

/-! ## Text in ASCII -/

theorem utf8EncodeChar_ascii {c : Char} (h : c.toNat < 128) :
    ∃ b : UInt8, String.utf8EncodeChar c = [b] ∧ b.toNat = c.toNat := by
  have hval : c.val.toNat ≤ 0x7F := Nat.le_of_lt_succ h
  refine ⟨c.val.toUInt8, ?_, ?_⟩
  · rw [String.utf8EncodeChar, if_pos (by simpa using hval)]
    rfl
  · show c.val.toNat % 256 = c.val.toNat
    omega

theorem decodeUnits_ascii {text : List Char} (h : ∀ c ∈ text, c.toNat < 128) :
    decodeUnits utf8Next (text.flatMap String.utf8EncodeChar) = some (.ofChars text) := by
  induction text with
  | nil =>
    rw [List.flatMap_nil, decodeUnits]
    rfl
  | cons c text ih =>
    obtain ⟨b, hb, hvalue⟩ := utf8EncodeChar_ascii (h c List.mem_cons_self)
    have hnext : ∀ rest, utf8Next b rest = some (.char c, 0) := by
      intro rest
      rw [utf8Next, if_pos (by rw [hvalue]; exact h c List.mem_cons_self), hvalue, Point.ofNat_toNat]
    rw [List.flatMap_cons, hb, List.singleton_append, decodeUnits, hnext]
    dsimp only
    rw [List.drop_zero, ih fun d hd => h d (List.mem_cons_of_mem c hd)]
    rfl

/-- Text that starts with two characters of ASCII, none of them NUL, is UTF-8. -/
theorem detectEncoding_ascii {a b : UInt8} (ha : 0 < a.toNat ∧ a.toNat < 128)
    (hb : 0 < b.toNat ∧ b.toNat < 128) (rest : List UInt8) :
    detectEncoding (a :: b :: rest) = .utf8 := by
  have hother : ∀ c : UInt8, c.toNat = 0 ∨ 128 ≤ c.toNat → (c == a) = false := by
    intro c hc
    refine beq_false_of_ne ?_
    rintro rfl
    omega
  have hzero : ∀ c : UInt8, 0 < c.toNat → c ≠ 0 := by
    rintro c hc rfl
    exact absurd hc (by decide)
  unfold detectEncoding
  simp only [List.isPrefixOf, hother 0 (.inl rfl), hother 0xFF (.inr (by decide)),
    hother 0xFE (.inr (by decide)), hother 0xEF (.inr (by decide)), Bool.false_and, Bool.or_self,
    Bool.false_eq_true, if_false]
  split
  · rename_i heq
    cases heq
    rw [if_neg (hzero _ ha.1), if_neg (hzero _ hb.1)]
  · rename_i heq
    cases heq
    rw [if_neg (hzero _ ha.1), if_neg (hzero _ hb.1)]
  · rfl

/-- JSON text in ASCII is read as the text. -/
theorem loadsBytes_ascii {a b : Char} {text : List Char}
    (h : ∀ c ∈ a :: b :: text, 0 < c.toNat ∧ c.toNat < 128) :
    loadsBytes float limit ((a :: b :: text).flatMap String.utf8EncodeChar) =
      loads float limit (.ofChars (a :: b :: text)) := by
  have ha := h a List.mem_cons_self
  have hb := h b (List.mem_cons_of_mem a List.mem_cons_self)
  obtain ⟨x, hx, hxa⟩ := utf8EncodeChar_ascii ha.2
  obtain ⟨y, hy, hyb⟩ := utf8EncodeChar_ascii hb.2
  have hdetect : detectEncoding ((a :: b :: text).flatMap String.utf8EncodeChar) = .utf8 := by
    rw [List.flatMap_cons, List.flatMap_cons, hx, hy, List.singleton_append, List.singleton_append]
    exact detectEncoding_ascii (by rw [hxa]; exact ha) (by rw [hyb]; exact hb) _
  have hdecoded : decodeBytes ((a :: b :: text).flatMap String.utf8EncodeChar) .utf8 =
      some (.ofChars (a :: b :: text)) := decodeUnits_ascii fun c hc => (h c hc).2
  rw [loadsBytes, hdetect, hdecoded]

end Json.Reader
