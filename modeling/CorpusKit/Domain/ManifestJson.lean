import CorpusKit.Domain.Manifests
import CorpusKit.Library.JsonReader

/-! # Manifests in JSON

`RunManifest.model_validate_json(content, strict=True)`: the bytes are read as JSON,
every field in its own type and no other key, and the validators of the class run
again, the normalization of the parameters among them. -/

namespace CorpusKit.Manifests

open Json Json.Reader Documents

/-! ## Libraries -/

def daysInMonth (year month : Nat) : Nat :=
  if month = 2 then
    if year % 4 = 0 ∧ (year % 100 ≠ 0 ∨ year % 400 = 0) then 29 else 28
  else if month ∈ [4, 6, 9, 11] then 30
  else 31

/-- The day is one of its month. -/
def IsDate (t : UtcTime) : Prop := t.day ≤ daysInMonth t.year t.month

instance (t : UtcTime) : Decidable (IsDate t) := inferInstanceAs (Decidable (_ ≤ _))

/-- How pydantic reads the texts of a manifest; it reads the texts that it writes. -/
structure Pydantic where
  /-- A JSON number that is no integer, by the `repr` of its float. -/
  float : List Char → Option FloatText
  uuid : List Char → Option UuidBits
  /-- A datetime: in UTC, or nothing more when it has no offset. -/
  datetime : List Char → Option (Option UtcTime)
  uuid_text : ∀ id, uuid (uuidText id) = some id
  datetime_utc : ∀ t, IsDate t → datetime (jsonTimestamp t) = some (some t)

/-- How deep the JSON reader goes. -/
def recursionLimit : Nat := 200

/-- The JSON value of some bytes. An infinity or NaN fits no field, and the
parameters refuse it. -/
def readJson (float : List Char → Option FloatText) (content : ByteArray) : Option Value := do
  let text ← String.fromUTF8? content
  let value ← (loads float recursionLimit (.ofChars text.toList)).toOption
  value.value?

theorem readJson_dict {float : List Char → Option FloatText} {content : ByteArray} {v : Value}
    (h : readJson float content = some v) : v.Dict := by
  obtain ⟨text, -, h⟩ := Option.bind_eq_some_iff.mp h
  obtain ⟨decoded, hdecoded, hvalue⟩ := Option.bind_eq_some_iff.mp h
  cases hloads : loads float recursionLimit (.ofChars text.toList) with
  | error failure => rw [hloads] at hdecoded; cases hdecoded
  | ok value =>
    rw [hloads] at hdecoded
    cases hdecoded
    exact value?_dict decoded (loads_dict hloads) hvalue

/-! ## Values in their types -/

def str : Value → Option (List Char)
  | .str s => some s
  | _ => none

def int : Value → Option Int
  | .int n => some n
  | _ => none

/-- `ge=0`. -/
def natural (v : Value) : Option Nat := (int v).bind fun n => if 0 ≤ n then some n.toNat else none

def isLowerHex (c : Char) : Bool := isDigit c || ('a' ≤ c && c ≤ 'f')

/-- `^[0-9a-f]{64}$`. -/
def digest (v : Value) : Option Sha256 := do
  let text ← str v
  if text.length = 64 ∧ text.all isLowerHex = true then some (BitVec.ofNat 256 (unicodeValue text))
  else none

/-- `^sha256:[0-9a-f]{64}$`. -/
def imageDigest (v : Value) : Option Sha256 := do
  let text ← str v
  if text.take 7 = "sha256:".toList then digest (.str (text.drop 7)) else none

/-- A member of an enumeration by its value. -/
def member {α : Type} (all : List α) (value : α → List Char) (v : Value) : Option α := do
  let text ← str v
  all.find? fun a => value a == text

def uuid (p : Pydantic) (v : Value) : Option UuidBits := (str v).bind p.uuid

/-- `timezone_required` on a datetime. -/
def timestamp (p : Pydantic) (v : Value) : Option UtcTime := do
  let text ← str v
  let time ← p.datetime text
  time

def nullable {α : Type} (read : Value → Option α) : Value → Option (Option α)
  | .null => some none
  | v => (read v).map some

def items {α : Type} (read : Value → Option α) : Value → Option (List α)
  | .arr values => values.mapM read
  | _ => none

section Fields

variable {α : Type} (fields : List (List Char × Value))

/-- `extra="forbid"`. -/
def onlyKeys (keys : List (List Char)) : Bool := fields.all fun field => keys.contains field.1

def required (read : Value → Option α) (key : List Char) : Option α := (fields.lookup key).bind read

/-- A field whose default is `None`. -/
def defaulted (read : Value → Option α) (key : List Char) : Option (Option α) :=
  match fields.lookup key with
  | none => some none
  | some v => nullable read v

end Fields

/-! ## Records -/

def ContentDigest.read : Value → Option ContentDigest
  | .obj fields => do
    guard (onlyKeys fields ContentDigest.keys)
    let name ← required fields str "name".toList
    let sha256 ← required fields digest "sha256".toList
    let sizeBytes ← required fields natural "size_bytes".toList
    let content : ContentDigest := ⟨name, sha256, sizeBytes⟩
    if content.valid then some content else none
  | _ => none

def PhoibleProvenance.read : Value → Option PhoibleProvenance
  | .obj fields => do
    guard (onlyKeys fields PhoibleProvenance.keys)
    let revision ← required fields str "revision".toList
    let sha256 ← required fields digest "sha256".toList
    let phoible : PhoibleProvenance := ⟨revision, sha256⟩
    if phoible.valid then some phoible else none
  | _ => none

def DatasetProvenance.read : Value → Option DatasetProvenance
  | .obj fields => do
    guard (onlyKeys fields DatasetProvenance.keys)
    let name ← required fields str "name".toList
    let config ← required fields str "config".toList
    let split ← required fields str "split".toList
    let revision ← required fields str "revision".toList
    let selectorSha256 ← required fields digest "selector_sha256".toList
    let contentSha256 ← defaulted fields digest "content_sha256".toList
    let dataset : DatasetProvenance :=
      ⟨name, config, split, revision, selectorSha256, contentSha256⟩
    if dataset.valid then some dataset else none
  | _ => none

def ModelProvenance.read : Value → Option ModelProvenance
  | .obj fields => do
    guard (onlyKeys fields ModelProvenance.keys)
    let backend ← required fields str "backend".toList
    let identifier ← required fields str "identifier".toList
    let revision ← required fields str "revision".toList
    let artifactSha256 ← defaulted fields digest "artifact_sha256".toList
    let model : ModelProvenance := ⟨backend, identifier, revision, artifactSha256⟩
    if model.valid then some model else none
  | _ => none

/-! ## The validators -/

/-- The constraints of the fields, beside the parameters. -/
def RunManifest.constrained (m : RunManifest) : Bool :=
  hasLength 1 64 m.corpuskitVersion && hasLength 1 64 m.corpusgenVersion &&
    m.espeakVersion.all (hasLength 1 160) && hasLength 1 80 m.runtimeProfile &&
    isName m.runtimeProfile && hasLength 1 64 m.language && hasLength 1 160 m.targetSource &&
    hasLength 1 32 m.unit && 1 ≤ m.inputDigests.length && m.inputDigests.length ≤ 128 &&
    1 ≤ m.outputDigests.length && m.outputDigests.length ≤ 128

/-- The selector names the dataset of the provenance. -/
def selects (sha256 : List Char → Sha256) (selector : List (List Char × Value))
    (provenance : DatasetProvenance) : Bool :=
  required selector str "dataset".toList == some provenance.name &&
    required selector str "config".toList == some provenance.config &&
    required selector str "split".toList == some provenance.split &&
    required selector str "revision".toList == some provenance.revision &&
    provenance.selectorSha256 == sha256 (dumps (.obj selector))

/-- The dataset provenance is there and is the one of the source. -/
def selectsDataset (sha256 : List Char → Sha256) (dataset : Option DatasetProvenance)
    (source : List (List Char × Value)) : Bool :=
  match source.lookup "spec".toList, dataset with
  | some (.obj selector), some provenance => selects sha256 selector provenance
  | _, _ => false

/-- `validate_manifest` raises nothing. -/
def RunManifest.validateManifest (sha256 : List Char → Sha256) (m : RunManifest) : Bool :=
  decide (UtcTime.key m.startedAt ≤ UtcTime.key m.finishedAt) &&
    decide (m.inputDigests.map ContentDigest.name).Nodup &&
    decide (m.outputDigests.map ContentDigest.name).Nodup &&
    !(m.targetSource.map Char.toLower == "phoible".toList && m.phoible.isNone) &&
    !(isModelBacked m.operation && m.model.isNone) &&
    (m.operation != .generateRepository ||
      (huggingFaceSource m.parameters).all (selectsDataset sha256 m.dataset))

/-! ## The manifest -/

def RunKind.all : List RunKind :=
  [.phonemize, .evaluate, .distribution, .trajectory, .errorRates, .perplexity, .select,
    .generateRepository, .generateLlm, .generateLocal, .buildDatgIndex, .generateDatg, .trainPhonRl,
    .export]

def StopReason.all : List StopReason :=
  [.completed, .targetReached, .budgetExhausted, .cancelled, .failed]

def DeterminismClass.all : List DeterminismClass := [.exact, .bestEffort, .nonreproducible]

/-- The dictionary under a key. -/
def Dictionary.dictionary (dictionary : Dictionary) (key : List Char) : Option Dictionary :=
  match h : dictionary.fields.lookup key with
  | some (.obj fields) => some ⟨fields, dictFields_iff.mp dictionary.dict.2 _ (mem_of_lookup h)⟩
  | _ => none

def schemaVersion : List Char := "corpuskit.run-manifest.v1".toList

/-- The model of a dictionary. -/
def RunManifest.modelValidate (p : Pydantic) (sha256 : List Char → Sha256)
    (dictionary : Dictionary) : Option RunManifest := do
  let fields := dictionary.fields
  let field := fun {α : Type} (read : Value → Option α) (name : Field) =>
    required fields read name.name
  let default := fun {α : Type} (read : Value → Option α) (name : Field) =>
    defaulted fields read name.name
  guard (onlyKeys fields (Field.all.map Field.name))
  guard ((fields.lookup Field.schemaVersion.name).all fun v => str v == some schemaVersion)
  let projectId ← field (uuid p) .projectId
  let runId ← field (uuid p) .runId
  let operation ← field (member RunKind.all fun kind => kind.value.toList) .operation
  let corpuskitVersion ← field str .corpuskitVersion
  let corpusgenVersion ← field str .corpusgenVersion
  let espeakVersion ← default str .espeakVersion
  let phoible ← default PhoibleProvenance.read .phoible
  let model ← default ModelProvenance.read .model
  let dataset ← default DatasetProvenance.read .dataset
  let workerImageDigest ← field imageDigest .workerImageDigest
  let runtimeProfile ← field str .runtimeProfile
  let language ← field str .language
  let targetSource ← field str .targetSource
  let unit ← field str .unit
  let given ← Dictionary.dictionary dictionary Field.parameters.name
  let (parameters, _) ← (Documents.normalizeRunSpec sha256 given).toOption
  let seed ← default int .seed
  let inputDigests ← field (items ContentDigest.read) .inputDigests
  let outputDigests ← field (items ContentDigest.read) .outputDigests
  let startedAt ← field (timestamp p) .startedAt
  let finishedAt ← field (timestamp p) .finishedAt
  let stopReason ← field (member StopReason.all StopReason.value) .stopReason
  let determinism ← field (member DeterminismClass.all determinismValue) .determinism
  let manifest : RunManifest :=
    { projectId, runId, operation, corpuskitVersion, corpusgenVersion, espeakVersion, phoible
      model, dataset, workerImageDigest, runtimeProfile, language, targetSource, unit, parameters
      seed, inputDigests, outputDigests, startedAt, finishedAt, stopReason, determinism }
  if manifest.constrained && manifest.validateManifest sha256 then some manifest else none

def RunManifest.modelValidateJson (p : Pydantic) (sha256 : List Char → Sha256)
    (content : ByteArray) : Option RunManifest :=
  match h : readJson p.float content with
  | some (.obj fields) => RunManifest.modelValidate p sha256 ⟨fields, readJson_dict h⟩
  | _ => none

/-! ## Stored manifests -/

/-- `_ArtifactRecord`, in what is compared with the manifest. -/
structure ArtifactRecord where
  kind : ArtifactKind
  projectId : UuidBits
  runId : Option UuidBits
  sha256 : Sha256

def RunManifest.sha256 (hash : List Char → Sha256) (m : RunManifest) : Sha256 :=
  hash (dumps m.modelDump)

/-- The artifact row of `finalize`. -/
def RunManifest.artifact (hash : List Char → Sha256) (m : RunManifest) : ArtifactRecord where
  kind := .runManifest
  projectId := m.projectId
  runId := some m.runId
  sha256 := m.sha256 hash

/-- `_load_manifest`, with the verified content of the artifact. -/
def loadManifest (p : Pydantic) (hash : List Char → Sha256) (artifact : ArtifactRecord)
    (runId : Option UuidBits) (content : ByteArray) : Except Error RunManifest :=
  if artifact.kind ≠ .runManifest then .error (.reproducibility "manifest_metadata_conflict")
  else
    match RunManifest.modelValidateJson p hash content with
    | none => .error (.reproducibility "manifest_integrity_violation")
    | some manifest =>
      if manifest.canonicalBytes.data ≠ content.data ∨ manifest.sha256 hash ≠ artifact.sha256 ∨
          manifest.projectId ≠ artifact.projectId ∨ artifact.runId ≠ some manifest.runId ∨
          (runId.isSome = true ∧ artifact.runId ≠ runId) then
        .error (.reproducibility "manifest_integrity_violation")
      else .ok manifest

end CorpusKit.Manifests
