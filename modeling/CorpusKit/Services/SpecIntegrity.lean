import CorpusKit.Domain.Documents

/-! # Persisted run specs

The spec and its digest are two columns of a run. Submission writes what
normalization returns; a retry and a replay copy both columns of their source; the
worker and the manifest recorder normalize the column again and compare digests.
What else a submission, a retry or a replay checks decides only whether there is
a run. -/

namespace CorpusKit.SpecIntegrity

open Documents Json

/-- A normalized document as the dictionary it is. -/
def dictionaryOf (document : Document) : Dictionary := ⟨document.fields, document.loaded.dict⟩

/-- The columns of a run. -/
structure SpecColumns where
  spec : Dictionary
  specSha256 : Sha256

section

variable (sha256 : List Char → Sha256) (column : Dictionary → Dictionary)

/-- `submit`: `column` is what the database makes of a stored dictionary. -/
def submit (spec : Dictionary) : Except Error SpecColumns :=
  match Documents.normalizeRunSpec sha256 spec with
  | .error _ => .error (.invalidRequest "run.submit")
  | .ok (normalized, digest) => .ok ⟨column (dictionaryOf normalized), digest⟩

/-- `retry`: `normalized_spec=dict(source.spec)`. -/
def retry (source : SpecColumns) : SpecColumns := ⟨column source.spec, source.specSha256⟩

/-- `submit_replay`: `"spec": dict(source.spec)`. -/
def submitReplay (source : SpecColumns) : SpecColumns := ⟨column source.spec, source.specSha256⟩

/-- `DurableRunStore._verify_spec`. -/
def verifySpec (run : SpecColumns) (expectedHash : Sha256) : Except Error Unit :=
  if run.specSha256 ≠ expectedHash then .error (.runStore "spec_integrity_violation")
  else
    match Documents.normalizeRunSpec sha256 run.spec with
    | .error _ => .error (.runStore "spec_integrity_violation")
    | .ok (_, actualHash) =>
      if actualHash ≠ expectedHash then .error (.runStore "spec_integrity_violation") else .ok ()

/-- `_verify_reference`, of the manifest recorder. -/
def verifyReference (run : SpecColumns) (referenceSha256 : Sha256) : Except Error Unit :=
  if run.specSha256 ≠ referenceSha256 then .error (.reproducibility "spec_integrity_violation")
  else
    match Documents.normalizeRunSpec sha256 run.spec with
    | .error _ => .error (.reproducibility "spec_integrity_violation")
    | .ok (_, actual) =>
      if actual ≠ run.specSha256 then .error (.reproducibility "spec_integrity_violation") else .ok ()

/-- The digest of the spec `_authoritative_inputs` begins with, and its size. -/
def authoritativeSpec (run : SpecColumns) : Except Error (Sha256 × Nat) := do
  let (normalized, digest) ← Documents.normalizeRunSpec sha256 run.spec
  if digest ≠ run.specSha256 then .error (.reproducibility "spec_integrity_violation")
  else .ok (digest, (utf8 (dumps normalized.value)).size)

/-! ## Histories of runs -/

/-- A run that is created, and from what; sources are numbered by creation. -/
inductive Event
  | submit (spec : Dictionary)
  | retry (source : Nat)
  | submitReplay (source : Nat)

/-- The runs after one more event; an event without its source changes nothing. -/
def step (runs : List SpecColumns) : Event → List SpecColumns
  | .submit spec =>
    match submit sha256 column spec with
    | .error _ => runs
    | .ok run => runs ++ [run]
  | .retry source => runs ++ (runs[source]?.map (retry column)).toList
  | .submitReplay source => runs ++ (runs[source]?.map (submitReplay column)).toList

def history (events : List Event) : List SpecColumns := events.foldl (step sha256 column) []

end

end CorpusKit.SpecIntegrity
