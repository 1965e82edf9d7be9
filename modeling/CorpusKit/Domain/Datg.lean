import CorpusKit.Domain.Corpora
import Mathlib.Data.Finset.Sort
import Mathlib.Data.String.Basic

/-! # Guided-generation indexes

An index lists, for one phonetic unit level, the units of each token and the tokens of
each unit. Texts are ordered by their characters and dictionaries are lists of entries
with distinct keys. -/

namespace CorpusKit.Datg

inductive DatgUnit
  | phoneme
  | diphone
  | triphone
  deriving DecidableEq, Repr

def DatgUnit.value : DatgUnit → String
  | .phoneme => "phoneme"
  | .diphone => "diphone"
  | .triphone => "triphone"

def DatgUnit.hyphens : DatgUnit → Nat
  | .phoneme => 0
  | .diphone => 1
  | .triphone => 2

def hyphenCount (unit : String) : Nat := unit.toList.count '-'

/-- Lists are sorted by these orders. -/
scoped instance string_le_trans : IsTrans String fun a b => a ≤ b := inferInstance

scoped instance string_le_antisymm : Std.Antisymm fun a b : String => a ≤ b := inferInstance

scoped instance int_le_trans : IsTrans Int fun a b => a ≤ b := inferInstance

scoped instance int_le_antisymm : Std.Antisymm fun a b : Int => a ≤ b := inferInstance

def maxVocabulary : Nat := 100000
def maxTargetUnits : Nat := 4096
def maxSequencePhonemes : Nat := 1000
def maxIndexBytes : Nat := 32 * 1024 * 1024
def maxTokenId : Int := 10000000
def maxUnitCharacters : Nat := 192
def maxDecodedCharacters : Nat := 512

/-- What an index is an index of. -/
structure DatgCacheIdentity where
  tokenizerId : String
  tokenizerRevision : String
  tokenizerSnapshotSha256 : String
  language : String
  unit : DatgUnit
  corpusgenVersion : String
  espeakVersion : String
  cacheKeySha256 : String
  deriving DecidableEq

structure DatgUnitTokenSet where
  unit : String
  tokenIds : List Int
  deriving DecidableEq

structure DatgIndexedToken where
  tokenId : Int
  decodedText : String
  units : List String
  deriving DecidableEq

structure DatgIndexArtifact where
  identity : DatgCacheIdentity
  vocabularySize : Nat
  indexedTokenCount : Nat
  unitToTokens : List DatgUnitTokenSet
  tokenUnits : List DatgIndexedToken
  contentSha256 : List Char
  deriving DecidableEq

/-! ## Validation -/

def isBlank (text : String) : Bool := (strip text.toList).isEmpty

/-- `tuple(sorted(set(values))) == values`. -/
def isSorted {α : Type} [LinearOrder α] (values : List α) : Bool :=
  decide (values.toFinset.sort = values)

def isTokenId (tokenId : Int) : Bool := decide (0 ≤ tokenId ∧ tokenId ≤ maxTokenId)

/-- `_validate_unit_level` for one unit. -/
def isAtLevel (level : DatgUnit) (unit : String) : Bool :=
  !isBlank unit && decide (unit.length ≤ maxUnitCharacters) && hyphenCount unit == level.hyphens

def DatgUnitTokenSet.valid (entry : DatgUnitTokenSet) : Bool :=
  decide (1 ≤ entry.unit.length ∧ entry.unit.length ≤ maxUnitCharacters) &&
    decide (1 ≤ entry.tokenIds.length ∧ entry.tokenIds.length ≤ maxVocabulary) &&
    !isBlank entry.unit && isSorted entry.tokenIds && entry.tokenIds.all isTokenId

def DatgIndexedToken.valid (token : DatgIndexedToken) : Bool :=
  isTokenId token.tokenId && decide (token.decodedText.length ≤ maxDecodedCharacters) &&
    decide (1 ≤ token.units.length ∧ token.units.length ≤ maxSequencePhonemes * 3) &&
    isSorted token.units &&
    token.units.all fun unit => !isBlank unit && decide (unit.length ≤ maxUnitCharacters)

namespace DatgIndexArtifact

variable (artifact : DatgIndexArtifact)

def unitNames : List String := artifact.unitToTokens.map DatgUnitTokenSet.unit

def tokenIds : List Int := artifact.tokenUnits.map DatgIndexedToken.tokenId

/-- The units of all tokens. -/
def allUnits : List String := artifact.tokenUnits.flatMap DatgIndexedToken.units

/-- The tokens that list the unit, in order. -/
def tokensOf (unit : String) : List Int :=
  (artifact.tokenUnits.filter fun token => decide (unit ∈ token.units)).map
    DatgIndexedToken.tokenId

/-- The checks of `validate_artifact` on the two tables. -/
def consistent : Bool :=
  decide (artifact.indexedTokenCount = artifact.tokenUnits.length) &&
    decide (artifact.indexedTokenCount ≤ artifact.vocabularySize) &&
    isSorted artifact.unitNames && isSorted artifact.tokenIds &&
    artifact.unitNames.all (isAtLevel artifact.identity.unit) &&
    artifact.allUnits.all (isAtLevel artifact.identity.unit) &&
    decide (artifact.allUnits.toFinset.sort = artifact.unitNames) &&
    artifact.unitToTokens.all fun entry => decide (entry.tokenIds = artifact.tokensOf entry.unit)

/-- The bounds of the fields and of their models. -/
def fits : Bool :=
  decide (1 ≤ artifact.vocabularySize ∧ artifact.vocabularySize ≤ maxVocabulary) &&
    decide (artifact.indexedTokenCount ≤ maxVocabulary) &&
    decide (artifact.unitToTokens.length ≤ maxTargetUnits * 16) &&
    decide (artifact.tokenUnits.length ≤ maxVocabulary) &&
    artifact.unitToTokens.all DatgUnitTokenSet.valid && artifact.tokenUnits.all DatgIndexedToken.valid

def identityDump (identity : DatgCacheIdentity) : Json.Value :=
  .obj [("schema_id".toList, .str "corpuskit.datg-index-cache-key.v1".toList),
    ("tokenizer_id".toList, .str identity.tokenizerId.toList),
    ("tokenizer_revision".toList, .str identity.tokenizerRevision.toList),
    ("tokenizer_snapshot_sha256".toList, .str identity.tokenizerSnapshotSha256.toList),
    ("language".toList, .str identity.language.toList),
    ("unit".toList, .str identity.unit.value.toList),
    ("corpusgen_version".toList, .str identity.corpusgenVersion.toList),
    ("espeak_version".toList, .str identity.espeakVersion.toList),
    ("cache_key_sha256".toList, .str identity.cacheKeySha256.toList)]

/-- The dump without the digest. -/
def payload : Json.Value :=
  .obj [("schema_id".toList, .str "corpuskit.datg-index.v1".toList),
    ("identity".toList, identityDump artifact.identity),
    ("vocabulary_size".toList, .int artifact.vocabularySize),
    ("indexed_token_count".toList, .int artifact.indexedTokenCount),
    ("unit_to_tokens".toList, .arr (artifact.unitToTokens.map fun entry =>
      .obj [("unit".toList, .str entry.unit.toList),
        ("token_ids".toList, .arr (entry.tokenIds.map Json.Value.int))])),
    ("token_units".toList, .arr (artifact.tokenUnits.map fun token =>
      .obj [("token_id".toList, .int token.tokenId),
        ("decoded_text".toList, .str token.decodedText.toList),
        ("units".toList, .arr (token.units.map fun unit => .str unit.toList))]))]

/-- `_canonical` of the payload. -/
def canonical : List UInt8 := (Json.dumps artifact.payload).flatMap String.utf8EncodeChar

def isHexDigest (digest : List Char) : Bool :=
  decide (digest.length = 64) && digest.all fun c =>
    decide ('0' ≤ c ∧ c ≤ '9') || decide ('a' ≤ c ∧ c ≤ 'f')

/-- The model's validation; `sha256` is the hexadecimal digest. -/
def valid (sha256 : List UInt8 → List Char) : Bool :=
  artifact.fits && isHexDigest artifact.contentSha256 && artifact.consistent &&
    decide (artifact.canonical.length ≤ maxIndexBytes) &&
    decide (sha256 artifact.canonical = artifact.contentSha256)

end DatgIndexArtifact

/-- `DatgIndexArtifact.create`, none for a `ValidationError`. -/
def createArtifact (sha256 : List UInt8 → List Char) (identity : DatgCacheIdentity)
    (vocabularySize : Nat) (unitToTokens : List DatgUnitTokenSet)
    (tokenUnits : List DatgIndexedToken) : Option DatgIndexArtifact :=
  let tables : DatgIndexArtifact :=
    { identity := identity, vocabularySize := vocabularySize
      indexedTokenCount := tokenUnits.length, unitToTokens := unitToTokens
      tokenUnits := tokenUnits, contentSha256 := [] }
  let artifact := { tables with contentSha256 := sha256 tables.canonical }
  if artifact.valid sha256 then some artifact else none

end CorpusKit.Datg
