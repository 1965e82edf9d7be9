import CorpusKit.Domain.Manifests

/-! # What a replay verdict says

`compare_replay` compares the manifests as Python values. Everything but the
parameters holds no boolean and no float, so there equal values have equal bytes;
the parameters may read the same and still be written differently. -/

namespace CorpusKit.Manifests

open Json Documents

/-- The parameters as `==` sees them. -/
def RunManifest.parameterReading (m : RunManifest) : Reading := m.parameters.value.reading

theorem get_parameters_sorted (m : RunManifest) :
    (m.get .parameters).sorted = m.parameters.value :=
  m.parameters.loaded.sorted

theorem pyEq_get (e o : RunManifest) (field : Field) :
    pyEq (e.get field) (o.get field) = true ↔
      (e.get field).sorted.reading = (o.get field).sorted.reading :=
  pyEq_iff_reading (get_dict e field) (get_dict o field)

theorem differences_isEmpty {e o : RunManifest} :
    (differences e o).isEmpty = true ↔
      ∀ field, field ∉ ignored → pyEq (e.get field) (o.get field) = true := by
  rw [List.isEmpty_iff, differences, List.filter_eq_nil_iff]
  constructor
  · intro h field hignored
    have hfield := h field field.mem_sorted
    simpa [hignored] using hfield
  · intro h field _
    by_cases hignored : field ∈ ignored
    · simp [hignored]
    · simp [h field hignored]

/-- An exact match: nothing but the masked fields differs, as far as `==` sees. -/
theorem exactMatch_iff {e o : RunManifest} :
    (compareReplay e o).verdict = .exactMatch ↔
      e.determinism = .exact ∧ AgreeElsewhere e o ∧ e.parameterReading = o.parameterReading := by
  have hverdict : (compareReplay e o).verdict = .exactMatch ↔
      e.determinism = .exact ∧ (differences e o).isEmpty = true ∧
        e.outputDigests = o.outputDigests ∧ o.determinism = .exact := by
    rw [compareReplay]
    cases hdeterminism : e.determinism with
    | exact => simp [and_assoc]
    | bestEffort =>
      refine ⟨fun h => ?_, fun h => nomatch h.1⟩
      simp only at h
      split at h
      · cases h
      · split at h <;> cases h
    | nonreproducible => simp
  rw [hverdict, differences_isEmpty, agreeElsewhere_iff]
  refine and_congr_right fun hexact => ⟨?_, ?_⟩
  · rintro ⟨hequal, houtputs, -⟩
    refine ⟨fun field hmasked hparameters => ?_, ?_⟩
    · by_cases houtput : field = .outputDigests
      · rw [houtput]
        show (Value.arr (e.outputDigests.map ContentDigest.dump)).sorted = _
        rw [houtputs]
        rfl
      · have hignored : field ∉ ignored := by
          revert hmasked houtput
          cases field <;> decide
        exact ((get_plain e hparameters).pyEq_iff (get_plain o hparameters) (get_dict e field)
          (get_dict o field)).mp (hequal field hignored)
    · have hparameters := (pyEq_get e o .parameters).mp (hequal .parameters (by decide))
      rwa [get_parameters_sorted, get_parameters_sorted] at hparameters
  · rintro ⟨hagree, hparameters⟩
    have hsame : AgreeElsewhere e o := agreeElsewhere_iff.mpr hagree
    have houtputs : e.outputDigests = o.outputDigests := by rw [← hsame]
    have hdeterminism : e.determinism = o.determinism := by rw [← hsame]
    refine ⟨fun field hignored => ?_, houtputs, hdeterminism ▸ hexact⟩
    rw [pyEq_get]
    by_cases hfield : field = .parameters
    · rw [hfield, get_parameters_sorted, get_parameters_sorted]
      exact hparameters
    · have hmasked : field ∉ masked := by
        revert hignored
        cases field <;> decide
      rw [hagree field hmasked hfield]

theorem maskedBytes_iff {e o : RunManifest} :
    e.maskedBytes = o.maskedBytes ↔ AgreeElsewhere e o ∧ e.parameters = o.parameters := by
  rw [maskedBytes_eq_iff, agreeElsewhere_iff]
  constructor
  · intro h
    have hparameters := h .parameters (by decide)
    rw [get_parameters_sorted, get_parameters_sorted] at hparameters
    exact ⟨fun field hmasked _ => h field hmasked, Document.value_injective hparameters⟩
  · rintro ⟨hagree, hparameters⟩ field hmasked
    by_cases hfield : field = .parameters
    · rw [hfield, RunManifest.get, RunManifest.get, hparameters]
    · exact hagree field hmasked hfield

/-- **The exact-match verdict.** It means byte equality of the masked manifests
except where the parameters are two different texts that Python's `==` takes for
one value. -/
theorem exact_match_bytes (e o : RunManifest) :
    ((compareReplay e o).verdict = .exactMatch ↔
        e.determinism = .exact ∧ e.maskedBytes = o.maskedBytes) ↔
      ¬(e.determinism = .exact ∧ AgreeElsewhere e o ∧
        e.parameterReading = o.parameterReading ∧ e.parameters ≠ o.parameters) := by
  rw [exactMatch_iff, maskedBytes_iff]
  constructor
  · rintro h ⟨hexact, hagree, hreading, hne⟩
    exact hne (h.mp ⟨hexact, hagree, hreading⟩).2.2
  · intro h
    constructor
    · rintro ⟨hexact, hagree, hreading⟩
      refine ⟨hexact, hagree, ?_⟩
      by_contra hne
      exact h ⟨hexact, hagree, hreading, hne⟩
    · rintro ⟨hexact, hagree, hparameters⟩
      refine ⟨hexact, hagree, ?_⟩
      rw [RunManifest.parameterReading, RunManifest.parameterReading, hparameters]

/-! ## One and true -/

def sampleTime : UtcTime := ⟨2026, 1, 1, 0, 0, 0, 0, by decide, by decide⟩

/-- Parameters `{"x": value}`. -/
def sampleParameters (value : Value) (h : value.Loaded) : Document where
  fields := [("x".toList, value)]
  loaded := ⟨List.pairwise_singleton _ _, h, trivial⟩

def sampleDigest : ContentDigest := ⟨"run-spec".toList, 1, 7⟩

def sampleManifest (parameters : Document) : RunManifest where
  projectId := 1
  runId := 2
  operation := .phonemize
  corpuskitVersion := "1".toList
  corpusgenVersion := "1".toList
  espeakVersion := none
  phoible := none
  model := none
  dataset := none
  workerImageDigest := 3
  runtimeProfile := "cpu".toList
  language := "en".toList
  targetSource := "inventory".toList
  unit := "phoneme".toList
  parameters
  seed := none
  inputDigests := [sampleDigest]
  outputDigests := [sampleDigest]
  startedAt := sampleTime
  finishedAt := sampleTime
  stopReason := .completed
  determinism := .exact

theorem sampleManifest_valid (sha256 : List Char → Sha256) (parameters : Document)
    (h : ∃ spec digest, Documents.normalizeRunSpec sha256 spec = .ok (parameters, digest))
    (hsource : huggingFaceSource parameters = none) :
    (sampleManifest parameters).Valid sha256 where
  corpuskitVersion := rfl
  corpusgenVersion := rfl
  espeakVersion := rfl
  phoible := rfl
  model := rfl
  dataset := rfl
  runtimeProfile := rfl
  language := rfl
  targetSource := rfl
  unit := rfl
  parameters := h
  inputDigests := rfl
  outputDigests := rfl
  finish := le_refl _
  target := fun h => by
    have hne : "inventory".toList.map Char.toLower ≠ "phoible".toList := by decide
    exact absurd h hne
  backed := fun h => by
    have hfalse : isModelBacked .phonemize = false := rfl
    exact absurd (hfalse.symm.trans h) (by decide)
  selector := fun _ source hmem => by
    rw [sampleManifest, hsource] at hmem
    cases hmem

def integerParameters : Document := sampleParameters (.int 1) trivial

def booleanParameters : Document := sampleParameters (.bool true) trivial

theorem normalizes (sha256 : List Char → Sha256) (document : Document)
    (hinspect : inspect specLimits 0 0 document.value = .ok 2)
    (hwritable : writableFields document.fields = true)
    (hsize : (utf8 (dumps document.value)).size ≤ specLimits.maxBytes) :
    ∃ spec digest, Documents.normalizeRunSpec sha256 spec = .ok (document, digest) := by
  refine ⟨⟨document.fields, document.loaded.dict⟩, sha256 (dumps document.value), ?_⟩
  have hsorted : Dictionary.loaded ⟨document.fields, document.loaded.dict⟩ = document := by
    refine Document.value_injective ?_
    exact document.loaded.sorted
  have hnormal : normalize specLimits ⟨document.fields, document.loaded.dict⟩ = _ :=
    normalize_ok hinspect hwritable hsize
  rw [Documents.normalizeRunSpec, hnormal, hsorted]
  rfl

theorem integerManifest_valid (sha256 : List Char → Sha256) :
    (sampleManifest integerParameters).Valid sha256 :=
  sampleManifest_valid sha256 integerParameters
    (normalizes sha256 integerParameters rfl (by decide) (by decide)) rfl

theorem booleanManifest_valid (sha256 : List Char → Sha256) :
    (sampleManifest booleanParameters).Valid sha256 :=
  sampleManifest_valid sha256 booleanParameters
    (normalizes sha256 booleanParameters rfl (by decide) (by decide)) rfl

/-- Two valid manifests with parameters `{"x": 1}` and `{"x": true}` match exactly. -/
theorem one_matches_true :
    ¬∀ (sha256 : List Char → Sha256) (e o : RunManifest), e.Valid sha256 → o.Valid sha256 →
      ((compareReplay e o).verdict = .exactMatch ↔
        e.determinism = .exact ∧ e.maskedBytes = o.maskedBytes) := by
  intro h
  have hiff := h (fun _ => 0) _ _ (integerManifest_valid _) (booleanManifest_valid _)
  have hreading : (sampleManifest integerParameters).parameterReading =
      (sampleManifest booleanParameters).parameterReading := by
    simp [sampleManifest, RunManifest.parameterReading, integerParameters, booleanParameters,
      sampleParameters, Document.value, Value.reading, readFields]
  have hmatch := hiff.mp (exactMatch_iff.mpr ⟨rfl, rfl, hreading⟩)
  have hparameters := (maskedBytes_iff.mp hmatch.2).2
  simp [sampleManifest, integerParameters, booleanParameters, sampleParameters] at hparameters

end CorpusKit.Manifests
