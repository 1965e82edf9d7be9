import CorpusKit.Domain.Errors
import Mathlib.Data.List.Sort

/-! # Artifact kinds, states and storage keys

Identifiers are numbered; a UUID's hexadecimal form shows its low 128 bits. A
storage key is kept as the arguments it was built from, and `render` is the
string the object store and the database see. -/

namespace CorpusKit

abbrev Uuid := Nat

/-- A SHA-256 digest. -/
abbrev Sha256 := BitVec 256

inductive ArtifactKind
  | runManifest
  | corpusText
  | evaluationReport
  | export
  | checkpoint
  | modelAdapter
  | promptSet
  | runResult
  deriving DecidableEq, Repr

def ArtifactKind.value : ArtifactKind → String
  | .runManifest => "run-manifest"
  | .corpusText => "corpus-text"
  | .evaluationReport => "evaluation-report"
  | .export => "export"
  | .checkpoint => "checkpoint"
  | .modelAdapter => "model-adapter"
  | .promptSet => "prompt-set"
  | .runResult => "run-result"

inductive ArtifactState
  | active
  | tombstoned
  | deleted
  deriving DecidableEq, Repr

inductive DeterminismClass
  | exact
  | bestEffort
  | nonreproducible
  deriving DecidableEq, Repr

/-- The keys `artifact_storage_key` and `staged_artifact_storage_key` build. -/
inductive StorageKey
  | artifact (organizationId projectId : Uuid) (runId : Option Uuid) (kind : ArtifactKind)
      (sha256 : Sha256)
  | staged (sha256 : Sha256)
  deriving DecidableEq, Repr

def artifactStorageKey (organizationId projectId : Uuid) (runId : Option Uuid)
    (kind : ArtifactKind) (sha256 : Sha256) : StorageKey :=
  .artifact organizationId projectId runId kind sha256

/-! ## Rendering -/

/-- The lowercase hexadecimal digit of a number below sixteen. -/
def hexDigit (n : Nat) : Char :=
  if n < 10 then Char.ofNat (48 + n) else Char.ofNat (87 + n)

/-- The low `count` hexadecimal digits of `n`, most significant first. -/
def hexDigits : Nat → Nat → List Char
  | 0, _ => []
  | count + 1, n => hexDigits count (n / 16) ++ [hexDigit (n % 16)]

def uuidHex (id : Uuid) : List Char := hexDigits 32 id

def sha256Hex (digest : Sha256) : List Char := hexDigits 64 digest.toNat

/-- Segments joined by slashes. -/
def path : List (List Char) → List Char
  | [] => []
  | [s] => s
  | s :: t :: rest => s ++ '/' :: path (t :: rest)

/-- The scope segment of an artifact key. -/
def scopeChars : Option Uuid → List Char
  | some run => uuidHex run
  | none => "project".toList

def StorageKey.segments : StorageKey → List (List Char)
  | .artifact organizationId projectId runId kind sha256 =>
    ["artifacts".toList, "v1".toList, uuidHex organizationId, uuidHex projectId, scopeChars runId,
      kind.value.toList, (sha256Hex sha256).take 2, sha256Hex sha256]
  | .staged sha256 =>
    ["staging".toList, "v1".toList, "sha256".toList, (sha256Hex sha256).take 2, sha256Hex sha256]

def StorageKey.chars (key : StorageKey) : List Char := path key.segments

def StorageKey.render (key : StorageKey) : String := String.ofList key.chars

/-- Whether the key lies under `artifacts/v1`, the namespace reconciliation lists. -/
def StorageKey.isArtifact : StorageKey → Bool
  | .artifact .. => true
  | .staged _ => false

theorem hexDigits_length (count n : Nat) : (hexDigits count n).length = count := by
  induction count generalizing n with
  | zero => rfl
  | succ count ih => simp [hexDigits, ih]

theorem hexDigits_mem {count n : Nat} {c : Char} (h : c ∈ hexDigits count n) :
    ∃ d, d < 16 ∧ c = hexDigit d := by
  induction count generalizing n with
  | zero => cases h
  | succ count ih =>
    obtain h | h := List.mem_append.mp h
    · exact ih h
    · exact ⟨n % 16, Nat.mod_lt _ (by decide), List.mem_singleton.mp h⟩

end CorpusKit
