import CorpusKit.Domain.Artifacts
import CorpusKit.Library.JsonEquality
import Mathlib.Data.List.Infix

/-! # Bounded JSON documents

`normalize_run_spec` and `normalize_result_summary`: dictionaries of JSON values
within structural limits and without credentials, read back from their canonical
text. Keys are strings and floats are finite by their types. -/

namespace CorpusKit.Documents

open Json

/-- A Python dictionary of JSON values. -/
structure Dictionary where
  fields : List (List Char × Value)
  dict : (Value.obj fields).Dict

/-- A dictionary as `json.loads` reads it from its canonical text. -/
@[ext] structure Document where
  fields : List (List Char × Value)
  loaded : (Value.obj fields).Loaded

def Document.value (document : Document) : Value := .obj document.fields

theorem Document.value_injective {a b : Document} (h : a.value = b.value) : a = b := by
  rw [Document.value, Document.value, Value.obj.injEq] at h
  exact Document.ext h

/-- `dict.get`. -/
def Document.get (document : Document) (key : String) : Option Value :=
  document.fields.lookup key.toList

/-! ## Sensitive keys -/

def isLower (c : Char) : Bool := 'a' ≤ c && c ≤ 'z'

def isUpper (c : Char) : Bool := 'A' ≤ c && c ≤ 'Z'

def isDigit (c : Char) : Bool := '0' ≤ c && c ≤ '9'

def isAlphanumeric (c : Char) : Bool := isLower c || isUpper c || isDigit c

/-- The empty matches of `_KEY_BOUNDARY`, between two characters of a word. -/
def isBoundary (before after : Char) (next : Option Char) : Bool :=
  ((isLower before || isDigit before) && isUpper after) ||
    (isUpper before && isUpper after && next.any isLower)

/-- A word cut at its boundaries. -/
def camelParts : List Char → List (List Char)
  | [] => []
  | [c] => [[c]]
  | c :: d :: rest =>
    match camelParts (d :: rest) with
    | [] => [[c]]
    | part :: parts =>
      if isBoundary c d rest.head? then [c] :: part :: parts else (c :: part) :: parts

/-- The parts `_KEY_BOUNDARY.split` leaves of a key, without the empty ones, in
lower case; they have no character outside ASCII to fold. -/
def keyComponents (key : List Char) : List (List Char) :=
  ((key.splitOnP fun c => !isAlphanumeric c).flatMap camelParts).map fun part =>
    part.map Char.toLower

def referenceSuffixes : List (List Char) := ["id".toList, "ref".toList, "reference".toList]

def sensitiveComponents : List (List Char) :=
  ["authorization".toList, "credential".toList, "password".toList, "secret".toList]

def sensitiveSuffixes : List (List Char) :=
  ["accesstoken".toList, "apikey".toList, "bearertoken".toList, "clientsecret".toList,
    "privatekey".toList, "refreshtoken".toList]

/-- `_is_sensitive_key`. -/
def isSensitiveKey (key : List Char) : Bool :=
  let components := keyComponents key
  match components.getLast? with
  | none => false
  | some last =>
    !referenceSuffixes.contains last &&
      (components.any sensitiveComponents.contains || last == "token".toList ||
        sensitiveSuffixes.any fun suffix => decide (suffix <:+: components.flatten))

example : isSensitiveKey "clientSecret".toList = true ∧ isSensitiveKey "secret_ref".toList = false :=
  ⟨by decide, by decide⟩

/-! ## Normalization -/

/-- What the two normalizations differ in. -/
structure Limits where
  maxNodes : Nat
  maxDepth : Nat
  maxBytes : Nat
  structural : String
  credentials : String
  size : String

def specLimits : Limits where
  maxNodes := 20000
  maxDepth := 20
  maxBytes := 256 * 1024
  structural := "run spec exceeds structural limits"
  credentials := "run spec must use an opaque secret_ref instead of credentials"
  size := "run spec exceeds the persisted size limit"

def summaryLimits : Limits where
  maxNodes := 5000
  maxDepth := 10
  maxBytes := 64 * 1024
  structural := "result summary exceeds structural limits"
  credentials := "result summary must not contain credentials"
  size := "result summary exceeds the persisted size limit"

def reject {α : Type} (message : String) : Except Error α := .error (.value message)

/-- One more node at this depth. -/
def enter (limits : Limits) (depth nodes : Nat) : Except Error Nat :=
  if limits.maxNodes < nodes + 1 ∨ limits.maxDepth < depth then reject limits.structural
  else .ok (nodes + 1)

mutual

/-- `inspect`, with the number of nodes seen so far. -/
def inspect (limits : Limits) (depth nodes : Nat) : Value → Except Error Nat
  | .obj fields => do
    let nodes ← enter limits depth nodes
    inspectFields limits (depth + 1) nodes fields
  | .arr items => do
    let nodes ← enter limits depth nodes
    inspectItems limits (depth + 1) nodes items
  | _ => enter limits depth nodes

def inspectItems (limits : Limits) (depth nodes : Nat) : List Value → Except Error Nat
  | [] => .ok nodes
  | item :: items => do
    let nodes ← inspect limits depth nodes item
    inspectItems limits depth nodes items

def inspectFields (limits : Limits) (depth nodes : Nat) :
    List (List Char × Value) → Except Error Nat
  | [] => .ok nodes
  | (key, value) :: fields => do
    if isSensitiveKey key then reject limits.credentials
    let nodes ← inspect limits depth nodes value
    inspectFields limits depth nodes fields

end

mutual

/-- Python writes integers of at most 4300 digits. -/
def writable : Value → Bool
  | .int n => (Nat.toDigits 10 n.natAbs).length ≤ 4300
  | .arr items => writableItems items
  | .obj fields => writableFields fields
  | _ => true

def writableItems : List Value → Bool
  | [] => true
  | item :: items => writable item && writableItems items

def writableFields : List (List Char × Value) → Bool
  | [] => true
  | (_, value) :: fields => writable value && writableFields fields

end

/-- UTF-8 bytes of a text. -/
def utf8 (text : List Char) : ByteArray := (String.ofList text).toByteArray

theorem utf8_injective {s t : List Char} (h : utf8 s = utf8 t) : s = t :=
  String.ofList_injective (String.toByteArray_inj.mp h)

/-- What `json.loads` reads in the canonical text of a dictionary; `normalize_loads` says
so of the reader. -/
def Dictionary.loaded (dictionary : Dictionary) : Document where
  fields := (sortedFields dictionary.fields).insertionSort fun a b => a.1 ≤ b.1
  loaded := dictionary.dict.loaded

def normalize (limits : Limits) (dictionary : Dictionary) : Except Error (Document × List Char) := do
  let _ ← inspect limits 0 0 (.obj dictionary.fields)
  if !writableFields dictionary.fields then
    reject "Exceeds the limit (4300 digits) for integer string conversion"
  let encoded := dumps (.obj dictionary.fields)
  if limits.maxBytes < (utf8 encoded).size then reject limits.size
  pure (dictionary.loaded, encoded)

theorem normalize_ok {limits : Limits} {dictionary : Dictionary} {nodes : Nat}
    (hinspect : inspect limits 0 0 (.obj dictionary.fields) = .ok nodes)
    (hwritable : writableFields dictionary.fields = true)
    (hsize : (utf8 (dumps (.obj dictionary.fields))).size ≤ limits.maxBytes) :
    normalize limits dictionary = .ok (dictionary.loaded, dumps (.obj dictionary.fields)) := by
  have hfits : ¬limits.maxBytes < (utf8 (dumps (.obj dictionary.fields))).size := not_lt.mpr hsize
  rw [normalize, hinspect, hwritable]
  simp only [bind, Except.bind, Bool.not_true, Bool.false_eq_true, if_false, if_neg hfits]
  rfl

def normalizeRunSpec (sha256 : List Char → Sha256) (spec : Dictionary) :
    Except Error (Document × Sha256) := do
  let (normalized, encoded) ← normalize specLimits spec
  pure (normalized, sha256 encoded)

def normalizeResultSummary (summary : Dictionary) : Except Error Document := do
  let (normalized, _) ← normalize summaryLimits summary
  pure normalized

end CorpusKit.Documents
