import CorpusKit.Domain.Documents
import CorpusKit.Library.JsonBytes
import CorpusKit.Services.Exports
import CorpusKit.Workflows.RepositoryGeneration

/-! # Messages of the child process

The child may send any bytes; the parent takes from them one summary, one
progress message or one error code. -/

namespace CorpusKit.ProcessMessages

open Json.Reader Documents
open RepositoryGeneration (maxProcessProgressBytes)

def text (s : String) : Str := .ofChars s.toList

/-! ## Libraries -/

/-- Conversions of a pydantic model that is not strict: what they make of integers
and floats, and of other values whatever they like. -/
structure Pydantic where
  /-- `Literal[1]` accepts the value. -/
  one : Decoded → Bool
  int : Decoded → Option Int
  /-- An infinity and NaN are floats without a number. -/
  float : Decoded → Option Number
  one_int : one (.int 1) = true
  int_int : ∀ n, int (.int n) = some n
  float_float : ∀ x, float (.float x) = some (some x.value)

/-- `float` of a text, by its `repr`, and `repr` of a float. -/
structure Floats where
  parse : List Char → Option Json.FloatText
  repr : ℚ → Json.FloatText

/-- The `repr` of a float is a JSON number of at most 24 characters, and reads as the float. -/
structure Floats.Prints (floats : Floats) (q : ℚ) : Prop where
  short : (floats.repr q).chars.length ≤ 24
  reads : readNumber floats.parse (floats.repr q).chars = .ok (.float (floats.repr q))
  value : (floats.repr q).value = q

/-! ## Progress -/

def progressFields : List String :=
  ["schema_version", "sequence", "phase", "completed", "total", "coverage", "accepted_count"]

def get (fields : List (Str × Decoded)) (key : String) : Option Decoded := fields.lookup (text key)

/-- A field that may be absent or null. -/
def optional {α : Type} (convert : Decoded → Option α) : Option Decoded → Option (Option α)
  | none => some none
  | some .null => some none
  | some value => (convert value).map some

/-- `ge=0`. -/
def natural (n : Int) : Option Nat := if 0 ≤ n then some n.toNat else none

def phaseOf : Decoded → Option RunProgressPhase
  | .str s => s.chars?.bind fun chars => RunProgressPhase.ofValue (String.ofList chars)
  | _ => none

/-- `normalize_progress` of a dictionary. -/
def normalizeProgress (pydantic : Pydantic) (fields : List (Str × Decoded)) :
    Option DurableRunProgress := do
  guard (fields.all fun field => (progressFields.map text).contains field.1)
  guard ((get fields "schema_version").all pydantic.one)
  let sequence ← (get fields "sequence").bind pydantic.int
  let sequence ← natural sequence
  let phase ← (get fields "phase").bind phaseOf
  let count := fun value => (pydantic.int value).bind natural
  let completed ← optional count (get fields "completed")
  let total ← optional count (get fields "total")
  let coverage ← optional pydantic.float (get fields "coverage")
  let acceptedCount ← optional count (get fields "accepted_count")
  let progress : DurableRunProgress :=
    { sequence, phase, completed, total, coverage, acceptedCount }
  if progress.Valid then some progress else none

/-! ## Messages -/

/-- What the parent raises. -/
inductive Refusal
  /-- A `RunExecutionError`. -/
  | execution (code : Str) (retryable : Bool)
  /-- A `RecursionError`, which is no `ValueError`. -/
  | recursion
  deriving DecidableEq, Repr

inductive Message
  | result (summary : Document)
  | progress (progress : DurableRunProgress)

def invalidProgress : Refusal := .execution (text "invalid_progress") false

def contract : Refusal := .execution (text "worker_process_contract") false

/-- `_encode_progress`. -/
def encodeProgress (floats : Floats) (progress : DurableRunProgress) :
    Except Refusal (List UInt8) :=
  let encoded := encodeUtf8 (RepositoryGeneration.encodeProgress floats.repr progress)
  if maxProcessProgressBytes < encoded.length then .error invalidProgress else .ok encoded

def forbiddenAuthorityKeys : List (List Char) :=
  ["created_by".toList, "organization_id".toList, "project_id".toList, "run_id".toList,
    "tenant_id".toList, "user_id".toList]

section

variable (casefold : List Char → List Char)

mutual

/-- `_reject_authority_fields` raises. -/
def hasAuthority : Json.Value → Bool
  | .obj fields => hasAuthorityFields fields
  | .arr items => hasAuthorityItems items
  | _ => false

def hasAuthorityItems : List Json.Value → Bool
  | [] => false
  | item :: items => hasAuthority item || hasAuthorityItems items

def hasAuthorityFields : List (List Char × Json.Value) → Bool
  | [] => false
  | (key, value) :: fields =>
    forbiddenAuthorityKeys.contains (casefold key) || hasAuthority value ||
      hasAuthorityFields fields

end

/-- A dictionary without surrogates, infinities and NaN; of any other value
`normalize_result_summary` raises a `ValueError`, at the latest when it encodes it. -/
def dictionary? (decoded : Decoded) (h : decoded.Dict) : Option Dictionary :=
  match hvalue : decoded.value? with
  | some (.obj fields) => some ⟨fields, value?_dict decoded h hvalue⟩
  | _ => none

theorem get_dict {fields : List (Str × Decoded)} (h : (Decoded.obj fields).Dict) {key : String}
    {value : Decoded} (hget : get fields key = some value) : value.Dict :=
  dictFields_iff.mp h.2 (text key, value) (Json.mem_of_lookup hget)

def isText (value : Option Decoded) (s : String) : Bool :=
  match value with
  | some (.str t) => t == text s
  | _ => false

/-- A final response. -/
def resultMessage (summary : Decoded) (h : summary.Dict) : Except Refusal Message :=
  match dictionary? summary h with
  | none => .error contract
  | some dictionary =>
    match normalizeResultSummary dictionary with
    | .error _ => .error contract
    | .ok normalized =>
      if hasAuthority casefold normalized.value then .error contract else .ok (.result normalized)

def progressMessage (pydantic : Pydantic) (size : Nat) (progress : Option Decoded) :
    Except Refusal Message :=
  if maxProcessProgressBytes < size then .error invalidProgress
  else
    match progress with
    | some (.obj fields) =>
      match normalizeProgress pydantic fields with
      | some progress => .ok (.progress progress)
      | none => .error invalidProgress
    | _ => .error invalidProgress

/-- The error a child reports. -/
def errorMessage (code retryable : Option Decoded) : Refusal :=
  match code, retryable with
  | some (.str code), some (.bool retryable) => .execution code retryable
  | _, _ => contract

/-- A decoded message of so many bytes. -/
def readMessage (pydantic : Pydantic) (size : Nat) (decoded : Decoded) (h : decoded.Dict) :
    Except Refusal Message :=
  match decoded, h with
  | .obj fields, h =>
    let status := get fields "status"
    if isText status "progress" then progressMessage pydantic size (get fields "progress")
    else if isText status "error" then
      .error (errorMessage (get fields "code") (get fields "retryable"))
    else if isText status "ok" then
      match hsummary : get fields "summary" with
      | some summary => resultMessage casefold summary (get_dict h hsummary)
      | none => .error contract
    else .error contract
  | _, _ => .error contract

/-- `_decode_process_message`. -/
def decodeProcessMessage (pydantic : Pydantic) (floats : Floats) (limit : Nat)
    (response : List UInt8) : Except Refusal Message :=
  match hloaded : loadsBytes floats.parse limit response with
  | .ok decoded => readMessage casefold pydantic response.length decoded (loadsBytes_dict hloaded)
  | .error .value => .error contract
  | .error .recursion => .error .recursion

end

end CorpusKit.ProcessMessages
