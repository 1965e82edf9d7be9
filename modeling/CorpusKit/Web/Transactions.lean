import CorpusKit.Web.Sessions

/-! # Login transactions and signed states

The record of a login that has begun, and the state that names it in the
authorization request: a payload with the transaction's identifier and the time
of signing, and an HMAC of the payload. -/

namespace CorpusKit.Web

open Script

structure LoginTransaction where
  id : Text
  codeVerifier : Text
  nonce : Text
  returnPath : Text
  createdAt : Nat
  expiresAt : Nat
  deriving DecidableEq, Repr

/-- `exactKeys`. -/
def exactKeys (record : Record) (expected : List Text) : Bool :=
  (expected.all fun key => (record.map Prod.fst).contains key) &&
    (record.map Prod.fst).all fun key => expected.contains key

/-! ## The record -/

def LoginTransaction.fields (tx : LoginTransaction) : List (Text × Cell) :=
  [(text "id", .text tx.id), (text "codeVerifier", .text tx.codeVerifier),
    (text "nonce", .text tx.nonce), (text "returnPath", .text tx.returnPath),
    (text "createdAt", .integer tx.createdAt), (text "expiresAt", .integer tx.expiresAt)]

def transactionKeys : List Text :=
  [text "id", text "codeVerifier", text "nonce", text "returnPath", text "createdAt",
    text "expiresAt"]

/-- `JSON.stringify(record)`. -/
def LoginTransaction.json (tx : LoginTransaction) : List Char := stringify tx.fields

def decodeTransaction (raw : List Char) : Option LoginTransaction := do
  let record ← parse raw
  guard (exactKeys record transactionKeys)
  let id ← (record.get (text "id")).bind (string isOpaque)
  let codeVerifier ← (record.get (text "codeVerifier")).bind (string isOpaque)
  let nonce ← (record.get (text "nonce")).bind (string isOpaque)
  let returnPath ← (record.get (text "returnPath")).bind (string fun s => s.length ≤ 128)
  let createdAt ← safeTime (record.get (text "createdAt"))
  let expiresAt ← safeTime (record.get (text "expiresAt"))
  guard (createdAt < expiresAt)
  pure { id, codeVerifier, nonce, returnPath, createdAt, expiresAt }

/-! ## States -/

/-- The fields of a payload. -/
def stateFields (id : Text) (issuedAt : Nat) : List (Text × Cell) :=
  [(text "id", .text id), (text "iat", .integer issuedAt), (text "v", .integer 1)]

/-- The payload `sign` signs. -/
def statePayload (id : Text) (issuedAt : Nat) : Text :=
  ofChars (Base64.encode (utf8 (stringify (stateFields id issuedAt))))

/-- The code unit of `"."`. -/
def dot : CodeUnit := 46

def joinState (payload signature : Text) : Text := payload ++ dot :: signature

/-- The payload and the signature of a state. -/
def splitState (value : Text) : Option (Text × Text) :=
  match value.splitOn dot with
  | [payload, signature] => if payload ≠ [] ∧ signature ≠ [] then some (payload, signature) else none
  | _ => none

def safeInteger (value : Option Scalar) : Option Int :=
  match value with
  | some (.number q) => if q.den = 1 ∧ -(2 ^ 53) < q.num ∧ q.num < 2 ^ 53 then some q.num else none
  | _ => none

/-- The identifier and the time of a payload that was signed. -/
def decodeState (payload : Text) : Option (Text × Int) := do
  let raw ← fromUtf8 (Base64.decode (asciiChars payload))
  let record ← parse raw
  guard (exactKeys record [text "iat", text "id", text "v"])
  guard (record.get (text "v") = some (.number 1))
  let id ← (record.get (text "id")).bind (string isOpaque)
  let issuedAt ← safeInteger (record.get (text "iat"))
  pure (id, issuedAt)

/-! ## Records and states are read back -/

theorem asciiChars_ofChars {cs : List Char} (h : ∀ c ∈ cs, c.toNat < 128) :
    asciiChars (ofChars cs) = cs := by
  induction cs with
  | nil => rfl
  | cons c cs ih =>
    have hc := h c List.mem_cons_self
    have hval : (Fin.ofNat 65536 c.toNat).val = c.toNat := Nat.mod_eq_of_lt (by omega)
    have hunits : units c = [Fin.ofNat 65536 c.toNat] := by rw [units, if_pos (by omega)]
    rw [ofChars, List.flatMap_cons, hunits]
    show Char.ofNat (Fin.ofNat 65536 c.toNat).val :: asciiChars (ofChars cs) = _
    rw [hval, Char.ofNat_toNat, ih fun d hd => h d (List.mem_cons_of_mem _ hd)]

end CorpusKit.Web
