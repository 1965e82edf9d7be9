import CorpusKit.Adapters.DatgIndex

/-! # Inspections of an index

The three queries of the inspection service on an artifact its cache returned, with
the checks of their units and the cut to a number of results. -/

namespace CorpusKit.Datg

structure DatgInspectionResult where
  cacheKeySha256 : String
  tokenIds : List Int
  matched : List DatgIndexedToken
  totalMatches : Nat
  truncated : Bool
  deriving DecidableEq

/-- `_unique_units`. -/
def uniqueUnits (units : List String) : Except Error Unit :=
  if units.Nodup then .ok () else .error (.invalidRequest "datg.inspect.units")

/-- `_ensure_unit_level`. -/
def ensureUnitLevel (artifact : DatgIndexArtifact) (units : List String) : Except Error Unit :=
  if units.all (isAtLevel artifact.identity.unit) then .ok ()
  else .error (.invalidRequest "datg.inspect.unit_level")

/-- The record of a token. -/
def record (artifact : DatgIndexArtifact) (tokenId : Int) : Option DatgIndexedToken :=
  artifact.tokenUnits.reverse.find? fun token => token.tokenId = tokenId

/-- `_inspection_result`. -/
def inspectionResult (artifact : DatgIndexArtifact) (tokenIds : Finset Int) (maximum : Nat) :
    Except Error DatgInspectionResult :=
  let ordered := tokenIds.sort
  let selected := ordered.take maximum
  let found := selected.filterMap (record artifact)
  if found.length ≠ selected.length then .error (.engineUnavailable "datg.index.cache_contract")
  else .ok
    { cacheKeySha256 := artifact.identity.cacheKeySha256, tokenIds := selected, matched := found
      totalMatches := ordered.length, truncated := decide (selected.length < ordered.length) }

namespace DatgInspectionService

variable (artifact : DatgIndexArtifact)

/-- The tokens of `target`, before the cut. -/
def targetTokens (units : List String) : Finset Int :=
  (units.flatMap fun unit => (lookupTokens artifact unit).sort).toFinset

/-- The tokens of `covered`, before the cut. -/
def coveredTokens (units : List String) : Finset Int :=
  ((artifact.tokenUnits.filter fun token =>
    !token.units.isEmpty && decide (token.units.toFinset ⊆ units.toFinset)).map
      DatgIndexedToken.tokenId).toFinset

/-- The tokens of `frequency`, before the cut. -/
def frequencyTokens (unitCounts : List (String × Nat)) (threshold : Nat) : Finset Int :=
  ((artifact.tokenUnits.filter fun token =>
    !token.units.isEmpty && token.units.all fun unit =>
      decide (threshold < ArtifactWordIndex.countOf unitCounts unit)).map
        DatgIndexedToken.tokenId).toFinset

def target (units : List String) (maxResults : Nat) : Except Error DatgInspectionResult := do
  uniqueUnits units
  ensureUnitLevel artifact units
  inspectionResult artifact (targetTokens artifact units) maxResults

def covered (units : List String) (maxResults : Nat) : Except Error DatgInspectionResult := do
  uniqueUnits units
  ensureUnitLevel artifact units
  inspectionResult artifact (coveredTokens artifact units) maxResults

def frequency (unitCounts : List (String × Nat)) (threshold maxResults : Nat) :
    Except Error DatgInspectionResult := do
  ensureUnitLevel artifact (unitCounts.map Prod.fst)
  inspectionResult artifact (frequencyTokens artifact unitCounts threshold) maxResults

end DatgInspectionService

end CorpusKit.Datg
