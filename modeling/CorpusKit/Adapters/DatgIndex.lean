import CorpusKit.Domain.Datg

/-! # Indexes from the engine's maps

The artifact built from the two maps of the engine, and the index the guided
generation asks instead of the engine's own. -/

namespace CorpusKit.Datg

/-- `_filter_units`. -/
def filterUnits (units : Finset String) (level : Option String) : Finset String :=
  if level = some "phoneme" then units.filter fun unit => '-' ∉ unit.toList
  else if level = some "diphone" then units.filter fun unit => hyphenCount unit = 1
  else if level = some "triphone" then units.filter fun unit => hyphenCount unit = 2
  else units

/-- `_unit_matches`. -/
def unitMatches (unit : String) (level : DatgUnit) : Bool := hyphenCount unit == level.hyphens

/-- The engine's two dictionaries of sets. -/
structure IndexMaps where
  unitToTokens : List (String × Finset Int)
  tokenUnits : List (Int × Finset String)
  uniqueUnits : (unitToTokens.map Prod.fst).Nodup
  uniqueTokens : (tokenUnits.map Prod.fst).Nodup

/-- The tokens of the map with their units of the level, in order. -/
def filteredTokens (validIds : Finset Int) (level : DatgUnit) :
    List (Int × Finset String) → Except Error (List (Int × List String))
  | [] => .ok []
  | (tokenId, units) :: rest =>
    if tokenId ∉ validIds then .error (.engineContract "datg.index.token_id")
    else
      let selected := (filterUnits units (some level.value)).sort
      (filteredTokens validIds level rest).map fun others =>
        if selected = [] then others else (tokenId, selected) :: others

/-- The units of the filtered tokens, each with its tokens. -/
def derivedUnits (filtered : List (Int × List String)) : List (String × List Int) :=
  (filtered.flatMap Prod.snd).toFinset.sort.map fun unit =>
    (unit, ((filtered.filter fun entry => decide (unit ∈ entry.2)).map Prod.fst).insertionSort
      fun a b => a ≤ b)

/-- The engine's own unit map at the level. -/
def publicUnits (validIds : Finset Int) (level : DatgUnit) (maps : IndexMaps) :
    List (String × List Int) :=
  (maps.unitToTokens.filter fun entry => unitMatches entry.1 level).map fun entry =>
    (entry.1, (entry.2 ∩ validIds).sort)

/-- Equality of dictionaries, whatever the order of their entries. -/
def sameEntries (left right : List (String × List Int)) : Bool :=
  left.all (fun entry => decide (entry ∈ right)) && right.all fun entry => decide (entry ∈ left)

/-- The records of tokens, each decoded. -/
def decodeTokens (decode : Int → Except Error String) :
    List (Int × List String) → Except Error (List DatgIndexedToken)
  | [] => .ok []
  | (tokenId, units) :: rest =>
    match decode tokenId with
    | .error e => .error e
    | .ok text =>
      if maxDecodedCharacters < text.length then .error (.engineContract "datg.index.decode")
      else (decodeTokens decode rest).map (⟨tokenId, text, units⟩ :: ·)

/-- `_artifact_from_maps`; a `ValidationError` becomes the error of the build. -/
def artifactFromMaps (sha256 : List UInt8 → List Char) (decode : Int → Except Error String)
    (vocabulary : List (String × Int)) (maps : IndexMaps) (identity : DatgCacheIdentity) :
    Except Error DatgIndexArtifact :=
  let validIds := (vocabulary.map Prod.snd).toFinset
  match filteredTokens validIds identity.unit maps.tokenUnits with
  | .error e => .error e
  | .ok filtered =>
    let derived := derivedUnits filtered
    if !sameEntries (publicUnits validIds identity.unit maps) derived then
      .error (.engineContract "datg.index.mapping")
    else
      match decodeTokens decode (filtered.insertionSort fun a b => a.1 ≤ b.1) with
      | .error e => .error e
      | .ok tokenUnits =>
        match createArtifact sha256 identity vocabulary.length
            (derived.map fun entry => ⟨entry.1, entry.2⟩) tokenUnits with
        | none => .error (.engineUnavailable "datg.index.build")
        | some artifact => .ok artifact

/-! ## The index of the guided generation -/

/-- `_unit_to_tokens.get(unit, set())`. -/
def lookupTokens (artifact : DatgIndexArtifact) (unit : String) : Finset Int :=
  match artifact.unitToTokens.reverse.find? fun entry => entry.unit = unit with
  | some entry => entry.tokenIds.toFinset
  | none => ∅

namespace ArtifactWordIndex

variable (artifact : DatgIndexArtifact)

/-- `get_attribute_tokens`. -/
def attributeTokens (targetUnits : List String) : Finset Int :=
  (targetUnits.flatMap fun unit => (lookupTokens artifact unit).sort).toFinset

/-- The tokens whose units at a level are some, and satisfy the condition. -/
def tokensWhere (level : Option String) (condition : Finset String → Bool) : Finset Int :=
  ((artifact.tokenUnits.filter fun token =>
    let filtered := filterUnits token.units.toFinset level
    decide (filtered ≠ ∅) && condition filtered).map DatgIndexedToken.tokenId).toFinset

/-- `get_anti_attribute_tokens`. -/
def antiAttributeTokens (coveredUnits : Finset String) (level : Option String) : Finset Int :=
  tokensWhere artifact level fun units => decide (units ⊆ coveredUnits)

/-- A dictionary of counts, of which the last entry for a unit counts; 0 by default. -/
def countOf (unitCounts : List (String × Nat)) (unit : String) : Nat :=
  (unitCounts.reverse.lookup unit).getD 0

/-- `get_anti_attribute_tokens_by_frequency`. -/
def antiAttributeTokensByFrequency (unitCounts : List (String × Nat)) (threshold : Nat)
    (level : Option String) : Finset Int :=
  tokensWhere artifact level fun units =>
    decide (∀ unit ∈ units, threshold < countOf unitCounts unit)

end ArtifactWordIndex

end CorpusKit.Datg
