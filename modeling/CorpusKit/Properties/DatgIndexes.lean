import CorpusKit.Services.Datg

/-! # An index answers like the maps it was built from

An artifact holds exactly the pairs of the engine's token map at its unit level, in two
tables that are inverses of each other. So the generation's index, the inspections and
a scan of the map find the same tokens. -/

namespace CorpusKit.Datg

/-! ## Units of a level -/

theorem hyphenCount_eq_zero (unit : String) : hyphenCount unit = 0 ↔ '-' ∉ unit.toList :=
  List.count_eq_zero

/-- The two filters of the source select the same units. -/
theorem mem_filterUnits {units : Finset String} {level : DatgUnit} {unit : String} :
    unit ∈ filterUnits units (some level.value) ↔
      unit ∈ units ∧ unitMatches unit level = true := by
  cases level <;>
    simp [filterUnits, DatgUnit.value, unitMatches, DatgUnit.hyphens, hyphenCount_eq_zero]

theorem filterUnits_none (units : Finset String) : filterUnits units none = units := by
  simp [filterUnits]

theorem filterUnits_of_matches {units : Finset String} {level : DatgUnit}
    (h : ∀ unit ∈ units, unitMatches unit level = true) :
    filterUnits units (some level.value) = units := by
  ext unit
  rw [mem_filterUnits]
  exact ⟨fun hmem => hmem.1, fun hmem => ⟨hmem, h unit hmem⟩⟩

/-! ## The engine's map at a level -/

/-- The token's units of the level in the engine's map. -/
def Restricted (maps : IndexMaps) (level : DatgUnit) (tokenId : Int) (unit : String) : Prop :=
  ∃ units, (tokenId, units) ∈ maps.tokenUnits ∧ unit ∈ units ∧ unitMatches unit level = true

/-- The token's units of the level, in order. -/
def levelUnits (level : DatgUnit) (entry : Int × Finset String) : Int × List String :=
  (entry.1, (filterUnits entry.2 (some level.value)).sort)

theorem filteredTokens_spec {validIds : Finset Int} {level : DatgUnit} :
    ∀ {entries : List (Int × Finset String)} {filtered : List (Int × List String)},
      filteredTokens validIds level entries = .ok filtered →
      filtered = (entries.map (levelUnits level)).filter (fun entry => decide (entry.2 ≠ [])) ∧
        ∀ entry ∈ entries, entry.1 ∈ validIds
  | [], filtered, h => by
    cases h
    exact ⟨rfl, fun entry hentry => absurd hentry List.not_mem_nil⟩
  | (tokenId, units) :: rest, filtered, h => by
    rw [filteredTokens] at h
    split at h
    · cases h
    · next hvalid =>
      cases hrest : filteredTokens validIds level rest with
      | error e =>
        rw [hrest] at h
        cases h
      | ok others =>
        obtain ⟨hothers, hall⟩ := filteredTokens_spec hrest
        rw [hrest] at h
        cases h
        constructor
        · rw [List.map_cons, List.filter_cons, ← hothers, levelUnits]
          by_cases hnil : (filterUnits units (some level.value)).sort = []
          · simp [hnil]
          · simp [hnil]
        · intro entry hentry
          rcases List.mem_cons.mp hentry with rfl | hentry
          · exact not_not.mp hvalid
          · exact hall entry hentry

theorem decodeTokens_spec {decode : Int → Except Error String} :
    ∀ {entries : List (Int × List String)} {tokens : List DatgIndexedToken},
      decodeTokens decode entries = .ok tokens →
      tokens.map (fun token => (token.tokenId, token.units)) = entries
  | [], tokens, h => by
    cases h
    rfl
  | (tokenId, units) :: rest, tokens, h => by
    rw [decodeTokens] at h
    split at h
    · cases h
    · split at h
      · cases h
      · cases hrest : decodeTokens decode rest with
        | error e =>
          rw [hrest] at h
          cases h
        | ok others =>
          rw [hrest] at h
          cases h
          rw [List.map_cons, decodeTokens_spec hrest]

/-! ## The tables of an artifact -/

/-- What is known of an artifact built from the maps. -/
structure Built (maps : IndexMaps) (level : DatgUnit) (artifact : DatgIndexArtifact) : Prop where
  tokens : ∀ tokenId units,
    (∃ token ∈ artifact.tokenUnits, token.tokenId = tokenId ∧ token.units = units) ↔
      units ≠ [] ∧ ∃ all, (tokenId, all) ∈ maps.tokenUnits ∧
        units = (filterUnits all (some level.value)).sort
  units : ∀ unit tokenId,
    (∃ entry ∈ artifact.unitToTokens, entry.unit = unit ∧ tokenId ∈ entry.tokenIds) ↔
      ∃ token ∈ artifact.tokenUnits, token.tokenId = tokenId ∧ unit ∈ token.units
  distinctUnits : (artifact.unitToTokens.map DatgUnitTokenSet.unit).Nodup

variable {sha256 : List UInt8 → List Char} {decode : Int → Except Error String}
  {vocabulary : List (String × Int)} {maps : IndexMaps} {identity : DatgCacheIdentity}
  {level : DatgUnit} {artifact : DatgIndexArtifact}

theorem createArtifact_spec {vocabularySize : Nat} {unitToTokens : List DatgUnitTokenSet}
    {tokenUnits : List DatgIndexedToken}
    (h : createArtifact sha256 identity vocabularySize unitToTokens tokenUnits = some artifact) :
    artifact.valid sha256 = true ∧ artifact.identity = identity ∧
      artifact.unitToTokens = unitToTokens ∧ artifact.tokenUnits = tokenUnits := by
  rw [createArtifact] at h
  dsimp only at h
  split at h
  · next hvalid =>
    cases h
    exact ⟨hvalid, rfl, rfl, rfl⟩
  · cases h

/-- The steps of a build that succeeds. -/
theorem artifactFromMaps_spec
    (h : artifactFromMaps sha256 decode vocabulary maps identity = .ok artifact) :
    artifact.valid sha256 = true ∧ artifact.identity = identity ∧ ∃ filtered,
      filteredTokens (vocabulary.map Prod.snd).toFinset identity.unit maps.tokenUnits =
        .ok filtered ∧
      artifact.unitToTokens = (derivedUnits filtered).map (fun entry => ⟨entry.1, entry.2⟩) ∧
      artifact.tokenUnits.map (fun token => (token.tokenId, token.units)) =
        filtered.insertionSort fun a b => a.1 ≤ b.1 := by
  rw [artifactFromMaps] at h
  dsimp only at h
  split at h
  · cases h
  · next filtered hfiltered =>
    split at h
    · cases h
    · split at h
      · cases h
      · next tokens htokens =>
        split at h
        · cases h
        · next created hcreated =>
          cases h
          obtain ⟨hvalid, hidentity, hunits, htokenUnits⟩ := createArtifact_spec hcreated
          refine ⟨hvalid, hidentity, filtered, hfiltered, hunits, ?_⟩
          rw [htokenUnits, decodeTokens_spec htokens]

theorem mem_derivedUnits {filtered : List (Int × List String)} {unit : String} {tokenId : Int} :
    (∃ entry ∈ derivedUnits filtered, entry.1 = unit ∧ tokenId ∈ entry.2) ↔
      ∃ entry ∈ filtered, entry.1 = tokenId ∧ unit ∈ entry.2 := by
  constructor
  · rintro ⟨entry, hentry, rfl, hmem⟩
    obtain ⟨unit, -, rfl⟩ := List.mem_map.mp hentry
    obtain ⟨found, hfound, rfl⟩ := List.mem_map.mp ((List.mem_insertionSort _).mp hmem)
    obtain ⟨hfound, hunit⟩ := List.mem_filter.mp hfound
    exact ⟨found, hfound, rfl, of_decide_eq_true hunit⟩
  · rintro ⟨entry, hentry, rfl, hunit⟩
    refine ⟨(unit, _), List.mem_map.mpr ⟨unit, ?_, rfl⟩, rfl, ?_⟩
    · rw [Finset.mem_sort, List.mem_toFinset]
      exact List.mem_flatMap.mpr ⟨entry, hentry, hunit⟩
    · exact (List.mem_insertionSort _).mpr
        (List.mem_map.mpr ⟨entry, List.mem_filter.mpr ⟨hentry, decide_eq_true hunit⟩, rfl⟩)

theorem derivedUnits_nodup (filtered : List (Int × List String)) :
    ((derivedUnits filtered).map Prod.fst).Nodup := by
  rw [derivedUnits, List.map_map]
  have hid : (Prod.fst ∘ fun unit => (unit, ((filtered.filter fun entry =>
      decide (unit ∈ entry.2)).map Prod.fst).insertionSort fun a b => a ≤ b)) = id := rfl
  rw [hid, List.map_id]
  exact Finset.sort_nodup _ _

theorem built_of_artifactFromMaps
    (h : artifactFromMaps sha256 decode vocabulary maps identity = .ok artifact) :
    Built maps identity.unit artifact := by
  obtain ⟨-, -, filtered, hfiltered, hunits, htokens⟩ := artifactFromMaps_spec h
  have hfilter := (filteredTokens_spec hfiltered).1
  have hmem : ∀ tokenId units,
      (∃ token ∈ artifact.tokenUnits, token.tokenId = tokenId ∧ token.units = units) ↔
        (tokenId, units) ∈ filtered := by
    intro tokenId units
    rw [← List.mem_insertionSort fun a b : Int × List String => a.1 ≤ b.1, ← htokens, List.mem_map]
    simp only [Prod.mk.injEq]
  constructor
  · intro tokenId units
    rw [hmem, hfilter, List.mem_filter, List.mem_map]
    constructor
    · rintro ⟨⟨⟨id, all⟩, hentry, heq⟩, hne⟩
      cases heq
      exact ⟨of_decide_eq_true hne, all, hentry, rfl⟩
    · rintro ⟨hne, all, hentry, rfl⟩
      exact ⟨⟨(tokenId, all), hentry, rfl⟩, decide_eq_true hne⟩
  · intro unit tokenId
    have hderived := @mem_derivedUnits filtered unit tokenId
    rw [hunits]
    constructor
    · rintro ⟨entry, hentry, hname, htoken⟩
      obtain ⟨pair, hpair, rfl⟩ := List.mem_map.mp hentry
      obtain ⟨found, hfound, hid, hunit⟩ := hderived.mp ⟨pair, hpair, hname, htoken⟩
      obtain ⟨token, htoken, htokenId, htokenUnits⟩ := (hmem found.1 found.2).mpr hfound
      exact ⟨token, htoken, htokenId.trans hid, by rw [htokenUnits]; exact hunit⟩
    · rintro ⟨token, htoken, hid, hunit⟩
      have hfound := (hmem token.tokenId token.units).mp ⟨token, htoken, rfl, rfl⟩
      obtain ⟨pair, hpair, hname, hmember⟩ := hderived.mpr ⟨_, hfound, hid, hunit⟩
      exact ⟨_, List.mem_map.mpr ⟨pair, hpair, rfl⟩, hname, hmember⟩
  · rw [hunits, List.map_map]
    exact derivedUnits_nodup filtered

namespace Built

/-- The units of a token record are of the level. -/
theorem filterUnits_token (h : Built maps level artifact) {token : DatgIndexedToken}
    (htoken : token ∈ artifact.tokenUnits) {chosen : Option String}
    (hchosen : chosen = none ∨ chosen = some level.value) :
    filterUnits token.units.toFinset chosen = token.units.toFinset := by
  rcases hchosen with rfl | rfl
  · exact filterUnits_none _
  · obtain ⟨-, all, -, hunits⟩ := (h.tokens token.tokenId token.units).mp ⟨token, htoken, rfl, rfl⟩
    refine filterUnits_of_matches fun unit hunit => ?_
    rw [hunits, Finset.sort_toFinset] at hunit
    exact (mem_filterUnits.mp hunit).2

/-- The token table holds the pairs of the engine's map at the level. -/
theorem mem_tokens (h : Built maps level artifact) (tokenId : Int) (unit : String) :
    (∃ token ∈ artifact.tokenUnits, token.tokenId = tokenId ∧ unit ∈ token.units) ↔
      Restricted maps level tokenId unit := by
  constructor
  · rintro ⟨token, htoken, rfl, hunit⟩
    obtain ⟨-, all, hall, hunits⟩ := (h.tokens token.tokenId token.units).mp ⟨token, htoken, rfl, rfl⟩
    rw [hunits, Finset.mem_sort] at hunit
    exact ⟨all, hall, mem_filterUnits.mp hunit⟩
  · rintro ⟨all, hall, hunit⟩
    have hmem : unit ∈ (filterUnits all (some level.value)).sort :=
      (Finset.mem_sort _).mpr (mem_filterUnits.mpr hunit)
    obtain ⟨token, htoken, hid, hunits⟩ := (h.tokens tokenId _).mpr
      ⟨List.ne_nil_of_mem hmem, all, hall, rfl⟩
    exact ⟨token, htoken, hid, by rw [hunits]; exact hmem⟩

theorem mem_lookupTokens (h : Built maps level artifact) (unit : String) (tokenId : Int) :
    tokenId ∈ lookupTokens artifact unit ↔ Restricted maps level tokenId unit := by
  rw [← h.mem_tokens, ← h.units, lookupTokens]
  split
  · next entry hfind =>
    have hname : entry.unit = unit := by simpa using List.find?_some hfind
    have hentry := List.mem_reverse.mp (List.mem_of_find?_eq_some hfind)
    rw [List.mem_toFinset]
    constructor
    · intro hmem
      exact ⟨entry, hentry, hname, hmem⟩
    · rintro ⟨other, hother, hsame, hmem⟩
      have : other = entry := List.inj_on_of_nodup_map h.distinctUnits hother hentry
        (hsame.trans hname.symm)
      rwa [this] at hmem
  · next hnone =>
    rw [List.find?_eq_none] at hnone
    constructor
    · intro hmem
      exact absurd hmem (Finset.notMem_empty _)
    · rintro ⟨entry, hentry, hname, -⟩
      exact absurd (decide_eq_true hname) (hnone entry (List.mem_reverse.mpr hentry))

end Built

/-! ## Queries -/

/-- The tokens of which the engine's map lists a target unit at the level. -/
def scanTargets (maps : IndexMaps) (level : DatgUnit) (targetUnits : List String) : Finset Int :=
  ((maps.tokenUnits.filter fun entry => decide (∃ unit ∈ targetUnits,
    unit ∈ filterUnits entry.2 (some level.value))).map Prod.fst).toFinset

/-- The tokens whose units at the level in the engine's map are some, and satisfy a
condition. -/
def scanWhere (maps : IndexMaps) (level : DatgUnit) (condition : Finset String → Bool) :
    Finset Int :=
  ((maps.tokenUnits.filter fun entry =>
    decide (filterUnits entry.2 (some level.value) ≠ ∅) &&
      condition (filterUnits entry.2 (some level.value))).map Prod.fst).toFinset

namespace Built

theorem attributeTokens_eq (h : Built maps level artifact) (targetUnits : List String) :
    ArtifactWordIndex.attributeTokens artifact targetUnits = scanTargets maps level targetUnits := by
  ext tokenId
  simp only [ArtifactWordIndex.attributeTokens, scanTargets, List.mem_toFinset, List.mem_flatMap,
    Finset.mem_sort, h.mem_lookupTokens, List.mem_map, List.mem_filter, decide_eq_true_eq]
  constructor
  · rintro ⟨unit, htarget, all, hall, hunit⟩
    exact ⟨(tokenId, all), ⟨hall, unit, htarget, mem_filterUnits.mpr hunit⟩, rfl⟩
  · rintro ⟨⟨id, all⟩, ⟨hall, unit, htarget, hunit⟩, rfl⟩
    exact ⟨unit, htarget, all, hall, mem_filterUnits.mp hunit⟩

/-- A condition on a token's units finds the tokens the engine's map has for it. -/
theorem where_eq (h : Built maps level artifact) (condition : Finset String → Bool) :
    ((artifact.tokenUnits.filter fun token => decide (token.units.toFinset ≠ ∅) &&
      condition token.units.toFinset).map DatgIndexedToken.tokenId).toFinset =
        scanWhere maps level condition := by
  ext tokenId
  simp only [scanWhere, List.mem_toFinset, List.mem_map, List.mem_filter, Bool.and_eq_true,
    decide_eq_true_eq]
  constructor
  · rintro ⟨token, ⟨htoken, hne, hcondition⟩, rfl⟩
    obtain ⟨-, all, hall, hunits⟩ := (h.tokens token.tokenId token.units).mp ⟨token, htoken, rfl, rfl⟩
    rw [hunits, Finset.sort_toFinset] at hne hcondition
    exact ⟨(token.tokenId, all), ⟨hall, hne, hcondition⟩, rfl⟩
  · rintro ⟨⟨id, all⟩, ⟨hall, hne, hcondition⟩, rfl⟩
    have hsort : (filterUnits all (some level.value)).sort ≠ [] := by
      intro hnil
      have := Finset.sort_toFinset (filterUnits all (some level.value)) (fun a b => a ≤ b)
      rw [hnil] at this
      exact hne this.symm
    obtain ⟨token, htoken, hid, hunits⟩ := (h.tokens id _).mpr ⟨hsort, all, hall, rfl⟩
    refine ⟨token, ⟨htoken, ?_, ?_⟩, hid⟩
    · rwa [hunits, Finset.sort_toFinset]
    · rwa [hunits, Finset.sort_toFinset]

theorem tokensWhere_eq (h : Built maps level artifact) {chosen : Option String}
    (hchosen : chosen = none ∨ chosen = some level.value) (condition : Finset String → Bool) :
    ArtifactWordIndex.tokensWhere artifact chosen condition = scanWhere maps level condition := by
  rw [← h.where_eq, ArtifactWordIndex.tokensWhere]
  congr 2
  refine List.filter_congr fun token htoken => ?_
  rw [h.filterUnits_token htoken hchosen]

theorem coveredTokens_eq (h : Built maps level artifact) (units : List String) :
    DatgInspectionService.coveredTokens artifact units =
      scanWhere maps level fun found => decide (found ⊆ units.toFinset) := by
  rw [← h.where_eq, DatgInspectionService.coveredTokens]
  congr 2
  refine List.filter_congr fun token _ => ?_
  cases token.units <;> simp

theorem frequencyTokens_eq (h : Built maps level artifact) (unitCounts : List (String × Nat))
    (threshold : Nat) :
    DatgInspectionService.frequencyTokens artifact unitCounts threshold =
      scanWhere maps level fun found => decide (∀ unit ∈ found,
        threshold < ArtifactWordIndex.countOf unitCounts unit) := by
  rw [← h.where_eq, DatgInspectionService.frequencyTokens]
  congr 2
  refine List.filter_congr fun token _ => ?_
  have hall : (token.units.all fun unit =>
      decide (threshold < ArtifactWordIndex.countOf unitCounts unit)) =
      decide (∀ unit ∈ token.units.toFinset,
        threshold < ArtifactWordIndex.countOf unitCounts unit) := by
    rw [Bool.eq_iff_iff, List.all_eq_true]
    simp only [decide_eq_true_eq, List.mem_toFinset]
  rw [hall]
  cases token.units <;> simp

end Built

/-! ## Inspections -/

/-- The result of an inspection that found the tokens. -/
def inspected (artifact : DatgIndexArtifact) (tokenIds : Finset Int) (maximum : Nat) :
    DatgInspectionResult where
  cacheKeySha256 := artifact.identity.cacheKeySha256
  tokenIds := tokenIds.sort.take maximum
  matched := (tokenIds.sort.take maximum).filterMap (record artifact)
  totalMatches := tokenIds.card
  truncated := decide (maximum < tokenIds.card)

theorem record_isSome {tokenId : Int} (h : tokenId ∈ artifact.tokenIds) :
    (record artifact tokenId).isSome = true := by
  obtain ⟨token, htoken, hid⟩ := List.mem_map.mp h
  rw [record, List.find?_isSome]
  exact ⟨token, List.mem_reverse.mpr htoken, decide_eq_true hid⟩

/-- Tokens of the artifact are inspected without an error. -/
theorem inspectionResult_ok {tokenIds : Finset Int}
    (h : ∀ tokenId ∈ tokenIds, tokenId ∈ artifact.tokenIds) (maximum : Nat) :
    inspectionResult artifact tokenIds maximum = .ok (inspected artifact tokenIds maximum) := by
  have hfound : ((tokenIds.sort.take maximum).filterMap (record artifact)).length =
      (tokenIds.sort.take maximum).length := by
    rw [List.length_filterMap_eq_countP, List.countP_eq_length]
    intro tokenId hmem
    exact record_isSome (h tokenId ((Finset.mem_sort _).mp (List.mem_of_mem_take hmem)))
  rw [inspectionResult]
  simp only [hfound, ne_eq, not_true_eq_false, if_false, inspected, Finset.length_sort,
    List.length_take, Except.ok.injEq, DatgInspectionResult.mk.injEq, true_and]
  rw [decide_eq_decide]
  omega

theorem mem_tokenIds_of_filter {p : DatgIndexedToken → Bool} {tokenId : Int}
    (h : tokenId ∈ ((artifact.tokenUnits.filter p).map DatgIndexedToken.tokenId).toFinset) :
    tokenId ∈ artifact.tokenIds := by
  obtain ⟨token, htoken, hid⟩ := List.mem_map.mp (List.mem_toFinset.mp h)
  exact List.mem_map.mpr ⟨token, (List.mem_filter.mp htoken).1, hid⟩

theorem Built.mem_tokenIds_of_target (h : Built maps level artifact) {units : List String}
    {tokenId : Int} (hmem : tokenId ∈ DatgInspectionService.targetTokens artifact units) :
    tokenId ∈ artifact.tokenIds := by
  obtain ⟨unit, -, hlookup⟩ := List.mem_flatMap.mp (List.mem_toFinset.mp hmem)
  rw [Finset.mem_sort, h.mem_lookupTokens, ← h.mem_tokens] at hlookup
  obtain ⟨token, htoken, hid, -⟩ := hlookup
  exact List.mem_map.mpr ⟨token, htoken, hid⟩

/-- Units of the level are accepted, and give the tokens of the index, cut. -/
theorem Built.inspections (h : Built maps level artifact) (hlevel : artifact.identity.unit = level)
    (maximum : Nat) :
    (∀ units : List String, units.Nodup → units.all (isAtLevel level) = true →
      DatgInspectionService.target artifact units maximum =
        .ok (inspected artifact (DatgInspectionService.targetTokens artifact units) maximum) ∧
      DatgInspectionService.covered artifact units maximum =
        .ok (inspected artifact (DatgInspectionService.coveredTokens artifact units) maximum)) ∧
    ∀ (unitCounts : List (String × Nat)) (threshold : Nat),
      (unitCounts.map Prod.fst).all (isAtLevel level) = true →
      DatgInspectionService.frequency artifact unitCounts threshold maximum =
        .ok (inspected artifact
          (DatgInspectionService.frequencyTokens artifact unitCounts threshold) maximum) := by
  have hensure : ∀ units : List String, units.all (isAtLevel level) = true →
      ensureUnitLevel artifact units = .ok () := by
    intro units hall
    rw [ensureUnitLevel, hlevel, if_pos hall]
  constructor
  · intro units hnodup hall
    constructor
    · rw [DatgInspectionService.target, uniqueUnits, if_pos hnodup, hensure units hall]
      exact inspectionResult_ok (fun tokenId => h.mem_tokenIds_of_target) maximum
    · rw [DatgInspectionService.covered, uniqueUnits, if_pos hnodup, hensure units hall]
      exact inspectionResult_ok (fun tokenId => mem_tokenIds_of_filter) maximum
  · intro unitCounts threshold hall
    rw [DatgInspectionService.frequency, hensure _ hall]
    exact inspectionResult_ok (fun tokenId => mem_tokenIds_of_filter) maximum

/-- An artifact built from the engine's maps passes its validation, holds their pairs at
its level in both tables, and answers every query of the generation and of the
inspections like a scan of the token map. -/
theorem index_answers
    (h : artifactFromMaps sha256 decode vocabulary maps identity = .ok artifact) :
    artifact.valid sha256 = true ∧
    (∀ tokenId unit,
      ((∃ token ∈ artifact.tokenUnits, token.tokenId = tokenId ∧ unit ∈ token.units) ↔
        Restricted maps identity.unit tokenId unit) ∧
      ((∃ entry ∈ artifact.unitToTokens, entry.unit = unit ∧ tokenId ∈ entry.tokenIds) ↔
        Restricted maps identity.unit tokenId unit)) ∧
    (∀ targetUnits,
      ArtifactWordIndex.attributeTokens artifact targetUnits =
        scanTargets maps identity.unit targetUnits ∧
      DatgInspectionService.targetTokens artifact targetUnits =
        scanTargets maps identity.unit targetUnits) ∧
    (∀ (units : List String) (chosen : Option String),
      chosen = none ∨ chosen = some identity.unit.value →
      ArtifactWordIndex.antiAttributeTokens artifact units.toFinset chosen =
        scanWhere maps identity.unit (fun found => decide (found ⊆ units.toFinset)) ∧
      DatgInspectionService.coveredTokens artifact units =
        scanWhere maps identity.unit fun found => decide (found ⊆ units.toFinset)) ∧
    (∀ (unitCounts : List (String × Nat)) (threshold : Nat) (chosen : Option String),
      chosen = none ∨ chosen = some identity.unit.value →
      ArtifactWordIndex.antiAttributeTokensByFrequency artifact unitCounts threshold chosen =
        scanWhere maps identity.unit (fun found => decide (∀ unit ∈ found,
          threshold < ArtifactWordIndex.countOf unitCounts unit)) ∧
      DatgInspectionService.frequencyTokens artifact unitCounts threshold =
        scanWhere maps identity.unit fun found => decide (∀ unit ∈ found,
          threshold < ArtifactWordIndex.countOf unitCounts unit)) ∧
    ∀ maximum : Nat,
      (∀ units : List String, units.Nodup → units.all (isAtLevel identity.unit) = true →
        DatgInspectionService.target artifact units maximum =
          .ok (inspected artifact (DatgInspectionService.targetTokens artifact units) maximum) ∧
        DatgInspectionService.covered artifact units maximum =
          .ok (inspected artifact (DatgInspectionService.coveredTokens artifact units) maximum)) ∧
      ∀ (unitCounts : List (String × Nat)) (threshold : Nat),
        (unitCounts.map Prod.fst).all (isAtLevel identity.unit) = true →
        DatgInspectionService.frequency artifact unitCounts threshold maximum =
          .ok (inspected artifact
            (DatgInspectionService.frequencyTokens artifact unitCounts threshold) maximum) := by
  obtain ⟨hvalid, hidentity, -⟩ := artifactFromMaps_spec h
  have hbuilt := built_of_artifactFromMaps h
  refine ⟨hvalid, fun tokenId unit => ⟨hbuilt.mem_tokens tokenId unit, ?_⟩, fun targetUnits =>
    ⟨hbuilt.attributeTokens_eq targetUnits, hbuilt.attributeTokens_eq targetUnits⟩,
    fun units chosen hchosen => ⟨hbuilt.tokensWhere_eq hchosen _, hbuilt.coveredTokens_eq units⟩,
    fun unitCounts threshold chosen hchosen =>
      ⟨hbuilt.tokensWhere_eq hchosen _, hbuilt.frequencyTokens_eq unitCounts threshold⟩,
    fun maximum => hbuilt.inspections (congrArg DatgCacheIdentity.unit hidentity) maximum⟩
  rw [hbuilt.units]
  exact hbuilt.mem_tokens tokenId unit

/-! ## A small index -/

def smallMaps : IndexMaps where
  unitToTokens := [("a", {7}), ("a-b", {7, 9})]
  tokenUnits := [(7, {"a", "a-b"}), (9, {"a-b"})]
  uniqueUnits := by decide
  uniqueTokens := by decide

/-- The cache key is the SHA-256 digest of the other fields. -/
def smallIdentity : DatgCacheIdentity where
  tokenizerId := "org/model"
  tokenizerRevision := "f070b1c86ea0b2d762dd72484c49c818c6ccad90"
  tokenizerSnapshotSha256 := "224931eb13f8d2471acd38a4a0d7417d20e8ea340160a467ceaa359d25197b87"
  language := "en-us"
  unit := .phoneme
  corpusgenVersion := "0.1.1"
  espeakVersion := "1.51"
  cacheKeySha256 := "18fedfcf7b6bcee76b6f8aceb08cd35621cea1c4c8993b67b0b4a9b0034a43cb"

def smallDigest (_ : List UInt8) : List Char := List.replicate 64 '0'

def smallArtifact : Except Error DatgIndexArtifact :=
  artifactFromMaps smallDigest (fun _ => .ok "a") [("x", 7), ("y", 9)] smallMaps smallIdentity

theorem smallArtifact_built : ∃ artifact, smallArtifact = .ok artifact := by
  have h : (match smallArtifact with | .ok _ => true | .error _ => false) = true := by
    decide +kernel
  cases hartifact : smallArtifact with
  | ok artifact => exact ⟨artifact, rfl⟩
  | error e =>
    rw [hartifact] at h
    cases h

theorem index_answers_small : ∃ artifact, smallArtifact = .ok artifact ∧
    ArtifactWordIndex.attributeTokens artifact ["a"] = scanTargets smallMaps .phoneme ["a"] := by
  obtain ⟨artifact, h⟩ := smallArtifact_built
  exact ⟨artifact, h, ((index_answers h).2.2.1 ["a"]).1⟩

end CorpusKit.Datg
