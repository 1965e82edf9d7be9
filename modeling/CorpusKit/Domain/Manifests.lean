import CorpusKit.Domain.AuditHash
import CorpusKit.Domain.Documents
import CorpusKit.Domain.Jobs

/-! # Run manifests and their comparison

The manifest as its fields, the dictionary `model_dump` makes of it, its
canonical bytes and `compare_replay`. A digest is 256 bits and is written in
lowercase hexadecimal, so its pattern holds by its type. -/

namespace CorpusKit.Manifests

open Json Documents

structure ContentDigest where
  name : List Char
  sha256 : Sha256
  sizeBytes : Nat
  deriving DecidableEq, Repr

structure PhoibleProvenance where
  revision : List Char
  sha256 : Sha256
  deriving DecidableEq, Repr

structure DatasetProvenance where
  name : List Char
  config : List Char
  split : List Char
  revision : List Char
  selectorSha256 : Sha256
  contentSha256 : Option Sha256
  deriving DecidableEq, Repr

structure ModelProvenance where
  backend : List Char
  identifier : List Char
  revision : List Char
  artifactSha256 : Option Sha256
  deriving DecidableEq, Repr

inductive StopReason
  | completed
  | targetReached
  | budgetExhausted
  | cancelled
  | failed
  deriving DecidableEq, Repr

def StopReason.value : StopReason → List Char
  | .completed => "completed".toList
  | .targetReached => "target-reached".toList
  | .budgetExhausted => "budget-exhausted".toList
  | .cancelled => "cancelled".toList
  | .failed => "failed".toList

def determinismValue : DeterminismClass → List Char
  | .exact => "exact".toList
  | .bestEffort => "best-effort".toList
  | .nonreproducible => "nonreproducible".toList

structure RunManifest where
  projectId : UuidBits
  runId : UuidBits
  operation : RunKind
  corpuskitVersion : List Char
  corpusgenVersion : List Char
  espeakVersion : Option (List Char)
  phoible : Option PhoibleProvenance
  model : Option ModelProvenance
  dataset : Option DatasetProvenance
  workerImageDigest : Sha256
  runtimeProfile : List Char
  language : List Char
  targetSource : List Char
  unit : List Char
  parameters : Document
  seed : Option Int
  inputDigests : List ContentDigest
  outputDigests : List ContentDigest
  startedAt : UtcTime
  finishedAt : UtcTime
  stopReason : StopReason
  determinism : DeterminismClass

/-! ## Validation -/

/-- `^[A-Za-z0-9._-]+$`. -/
def isToken (text : List Char) : Bool :=
  !text.isEmpty && text.all fun c => isAlphanumeric c || c == '.' || c == '_' || c == '-'

/-- `^[A-Za-z0-9][A-Za-z0-9._-]*$`. -/
def isName (text : List Char) : Bool := isToken text && text.head?.any isAlphanumeric

def hasLength (low high : Nat) (text : List Char) : Bool :=
  low ≤ text.length && text.length ≤ high

def ContentDigest.valid (digest : ContentDigest) : Bool :=
  hasLength 1 160 digest.name && isName digest.name && digest.sizeBytes ≤ 100 * 1024 * 1024

def PhoibleProvenance.valid (phoible : PhoibleProvenance) : Bool :=
  hasLength 7 80 phoible.revision && isToken phoible.revision

def DatasetProvenance.valid (dataset : DatasetProvenance) : Bool :=
  hasLength 1 160 dataset.name && hasLength 1 160 dataset.config && hasLength 1 160 dataset.split &&
    hasLength 1 160 dataset.revision

def ModelProvenance.valid (model : ModelProvenance) : Bool :=
  hasLength 1 80 model.backend && isName model.backend && hasLength 1 255 model.identifier &&
    hasLength 1 255 model.revision

/-- Digest lists of a manifest: one to 128 valid digests of different names. -/
def validDigests (digests : List ContentDigest) : Bool :=
  1 ≤ digests.length && digests.length ≤ 128 && digests.all ContentDigest.valid &&
    decide (digests.map ContentDigest.name).Nodup

def UtcTime.key (t : UtcTime) : List Nat :=
  [t.year, t.month, t.day, t.hour, t.minute, t.second, t.microsecond]

def isModelBacked (kind : RunKind) : Bool :=
  kind == .generateLlm || kind == .generateLocal || kind == .generateDatg || kind == .perplexity ||
    kind == .trainPhonRl

/-- The `source` of the parameters, when it is a Hugging Face repository. -/
def huggingFaceSource (parameters : Document) : Option (List (List Char × Value)) :=
  match parameters.get "source" with
  | some (.obj source) =>
    match source.lookup "kind".toList with
    | some (.str kind) => if kind = "hugging_face".toList then some source else none
    | _ => none
  | _ => none

/-- The dataset provenance is the one the selector of the run names. -/
def matchesSelector (sha256 : List Char → Sha256) (source : List (List Char × Value))
    (dataset : Option DatasetProvenance) : Prop :=
  ∃ selector, source.lookup "spec".toList = some (.obj selector) ∧ ∃ provenance ∈ dataset,
    selector.lookup "dataset".toList = some (.str provenance.name) ∧
      selector.lookup "config".toList = some (.str provenance.config) ∧
      selector.lookup "split".toList = some (.str provenance.split) ∧
      selector.lookup "revision".toList = some (.str provenance.revision) ∧
      provenance.selectorSha256 = sha256 (dumps (.obj selector))

/-- What the field constraints and the validators of `RunManifest` check. -/
structure RunManifest.Valid (sha256 : List Char → Sha256) (m : RunManifest) : Prop where
  corpuskitVersion : hasLength 1 64 m.corpuskitVersion = true
  corpusgenVersion : hasLength 1 64 m.corpusgenVersion = true
  espeakVersion : m.espeakVersion.all (hasLength 1 160) = true
  phoible : m.phoible.all PhoibleProvenance.valid = true
  model : m.model.all ModelProvenance.valid = true
  dataset : m.dataset.all DatasetProvenance.valid = true
  runtimeProfile : (hasLength 1 80 m.runtimeProfile && isName m.runtimeProfile) = true
  language : hasLength 1 64 m.language = true
  targetSource : hasLength 1 160 m.targetSource = true
  unit : hasLength 1 32 m.unit = true
  parameters : ∃ spec digest,
    Documents.normalizeRunSpec sha256 spec = .ok (m.parameters, digest)
  inputDigests : validDigests m.inputDigests = true
  outputDigests : validDigests m.outputDigests = true
  finish : UtcTime.key m.startedAt ≤ UtcTime.key m.finishedAt
  target : m.targetSource.map Char.toLower = "phoible".toList → m.phoible.isSome = true
  backed : isModelBacked m.operation = true → m.model.isSome = true
  selector : m.operation = .generateRepository → ∀ source ∈ huggingFaceSource m.parameters,
    matchesSelector sha256 source m.dataset

/-! ## The dumped dictionary -/

inductive Field
  | schemaVersion
  | projectId
  | runId
  | operation
  | corpuskitVersion
  | corpusgenVersion
  | espeakVersion
  | phoible
  | model
  | dataset
  | workerImageDigest
  | runtimeProfile
  | language
  | targetSource
  | unit
  | parameters
  | seed
  | inputDigests
  | outputDigests
  | startedAt
  | finishedAt
  | stopReason
  | determinism
  deriving DecidableEq, Repr

def Field.name : Field → List Char
  | .schemaVersion => "schema_version".toList
  | .projectId => "project_id".toList
  | .runId => "run_id".toList
  | .operation => "operation".toList
  | .corpuskitVersion => "corpuskit_version".toList
  | .corpusgenVersion => "corpusgen_version".toList
  | .espeakVersion => "espeak_version".toList
  | .phoible => "phoible".toList
  | .model => "model".toList
  | .dataset => "dataset".toList
  | .workerImageDigest => "worker_image_digest".toList
  | .runtimeProfile => "runtime_profile".toList
  | .language => "language".toList
  | .targetSource => "target_source".toList
  | .unit => "unit".toList
  | .parameters => "parameters".toList
  | .seed => "seed".toList
  | .inputDigests => "input_digests".toList
  | .outputDigests => "output_digests".toList
  | .startedAt => "started_at".toList
  | .finishedAt => "finished_at".toList
  | .stopReason => "stop_reason".toList
  | .determinism => "determinism".toList

/-- The fields in the order of the class. -/
def Field.all : List Field :=
  [.schemaVersion, .projectId, .runId, .operation, .corpuskitVersion, .corpusgenVersion,
    .espeakVersion, .phoible, .model, .dataset, .workerImageDigest, .runtimeProfile, .language,
    .targetSource, .unit, .parameters, .seed, .inputDigests, .outputDigests, .startedAt,
    .finishedAt, .stopReason, .determinism]

def optional {α : Type} (dump : α → Value) : Option α → Value
  | none => .null
  | some a => dump a

def digestValue (digest : Sha256) : Value := .str (sha256Hex digest)

/-- A dictionary of values under the keys of a class. -/
def record (keys : List (List Char)) (values : List Value) : Value := .obj (keys.zip values)

def ContentDigest.keys : List (List Char) :=
  ["name".toList, "sha256".toList, "size_bytes".toList]

def ContentDigest.dump (digest : ContentDigest) : Value :=
  record ContentDigest.keys [.str digest.name, digestValue digest.sha256, .int digest.sizeBytes]

def PhoibleProvenance.keys : List (List Char) := ["revision".toList, "sha256".toList]

def PhoibleProvenance.dump (phoible : PhoibleProvenance) : Value :=
  record PhoibleProvenance.keys [.str phoible.revision, digestValue phoible.sha256]

def DatasetProvenance.keys : List (List Char) :=
  ["name".toList, "config".toList, "split".toList, "revision".toList, "selector_sha256".toList,
    "content_sha256".toList]

def DatasetProvenance.dump (dataset : DatasetProvenance) : Value :=
  record DatasetProvenance.keys [.str dataset.name, .str dataset.config, .str dataset.split,
    .str dataset.revision, digestValue dataset.selectorSha256,
    optional digestValue dataset.contentSha256]

def ModelProvenance.keys : List (List Char) :=
  ["backend".toList, "identifier".toList, "revision".toList, "artifact_sha256".toList]

def ModelProvenance.dump (model : ModelProvenance) : Value :=
  record ModelProvenance.keys [.str model.backend, .str model.identifier, .str model.revision,
    optional digestValue model.artifactSha256]

/-- A timestamp in UTC as `model_dump(mode="json")` writes it. -/
def jsonTimestamp (t : UtcTime) : List Char :=
  padded 4 t.year ++ ('-' :: (padded 2 t.month ++ ('-' :: (padded 2 t.day ++ ('T' ::
    (padded 2 t.hour ++ (':' :: (padded 2 t.minute ++ (':' :: (padded 2 t.second ++
      ((if t.microsecond = 0 then [] else '.' :: padded 6 t.microsecond) ++ ['Z'])))))))))))

/-- The value of a field in `model_dump(mode="json")`. -/
def RunManifest.get (m : RunManifest) : Field → Value
  | .schemaVersion => .str "corpuskit.run-manifest.v1".toList
  | .projectId => .str (uuidText m.projectId)
  | .runId => .str (uuidText m.runId)
  | .operation => .str m.operation.value.toList
  | .corpuskitVersion => .str m.corpuskitVersion
  | .corpusgenVersion => .str m.corpusgenVersion
  | .espeakVersion => optional Value.str m.espeakVersion
  | .phoible => optional PhoibleProvenance.dump m.phoible
  | .model => optional ModelProvenance.dump m.model
  | .dataset => optional DatasetProvenance.dump m.dataset
  | .workerImageDigest => .str ("sha256:".toList ++ sha256Hex m.workerImageDigest)
  | .runtimeProfile => .str m.runtimeProfile
  | .language => .str m.language
  | .targetSource => .str m.targetSource
  | .unit => .str m.unit
  | .parameters => m.parameters.value
  | .seed => optional Value.int m.seed
  | .inputDigests => .arr (m.inputDigests.map ContentDigest.dump)
  | .outputDigests => .arr (m.outputDigests.map ContentDigest.dump)
  | .startedAt => .str (jsonTimestamp m.startedAt)
  | .finishedAt => .str (jsonTimestamp m.finishedAt)
  | .stopReason => .str m.stopReason.value
  | .determinism => .str (determinismValue m.determinism)

def RunManifest.modelDump (m : RunManifest) : Value :=
  .obj (Field.all.map fun field => (field.name, m.get field))

def RunManifest.canonicalBytes (m : RunManifest) : ByteArray := utf8 (dumps m.modelDump)

/-! ## Comparison -/

inductive ReplayVerdict
  | exactMatch
  | bestEffortMatch
  | bestEffortDivergence
  | mismatch
  | nonreproducible
  deriving DecidableEq, Repr

structure ReplayComparison where
  classification : DeterminismClass
  verdict : ReplayVerdict
  replayInputsMatch : Bool
  outputsMatch : Bool
  differences : List (List Char)
  deriving DecidableEq, Repr

def ignored : List Field := [.runId, .startedAt, .finishedAt, .stopReason, .outputDigests]

/-- The fields by name. -/
def Field.sorted : List Field := Field.all.insertionSort fun a b => a.name ≤ b.name

def differences (expected observed : RunManifest) : List Field :=
  Field.sorted.filter fun field =>
    !ignored.contains field && !pyEq (expected.get field) (observed.get field)

/-- `compare_replay`. -/
def compareReplay (expected observed : RunManifest) : ReplayComparison :=
  let differing := differences expected observed
  let outputsMatch := decide (expected.outputDigests = observed.outputDigests)
  let replayInputsMatch := differing.isEmpty
  let verdict : ReplayVerdict :=
    match expected.determinism with
    | .nonreproducible => .nonreproducible
    | .exact =>
      if replayInputsMatch && outputsMatch && observed.determinism == .exact then .exactMatch
      else .mismatch
    | .bestEffort =>
      if !replayInputsMatch || observed.determinism == .nonreproducible then .mismatch
      else if outputsMatch then .bestEffortMatch
      else .bestEffortDivergence
  { classification := expected.determinism, verdict, replayInputsMatch, outputsMatch
    differences := differing.map Field.name }

/-! ## Masked bytes -/

/-- The fields in which a replay may differ from its source. -/
def masked : List Field := [.runId, .startedAt, .finishedAt, .stopReason]

/-- The canonical bytes with the masked fields left blank. -/
def RunManifest.maskedBytes (m : RunManifest) : ByteArray :=
  utf8 (dumps (.obj (Field.all.map fun field =>
    (field.name, if field ∈ masked then .null else m.get field))))

/-! ## The dump determines the manifest -/

theorem Field.mem_all (field : Field) : field ∈ Field.all := by
  cases field <;> decide

theorem Field.mem_sorted (field : Field) : field ∈ Field.sorted :=
  (List.perm_insertionSort _ _).mem_iff.mpr field.mem_all

theorem Field.names_nodup : (Field.all.map Field.name).Nodup := by
  decide

theorem sha256Hex_injective {a b : Sha256} (h : sha256Hex a = sha256Hex b) : a = b := by
  have hmod := hexDigits_mod h
  have ha : a.toNat < 16 ^ 64 := a.isLt
  have hb : b.toNat < 16 ^ 64 := b.isLt
  rw [Nat.mod_eq_of_lt ha, Nat.mod_eq_of_lt hb] at hmod
  exact BitVec.eq_of_toNat_eq hmod

theorem digestValue_injective {a b : Sha256} (h : (digestValue a).sorted = (digestValue b).sorted) :
    a = b := by
  simp only [digestValue, Value.sorted, Value.str.injEq] at h
  exact sha256Hex_injective h

theorem optional_injective {α : Type} {f : α → Value}
    (hinj : ∀ {a b}, (f a).sorted = (f b).sorted → a = b)
    (hnull : ∀ a, (f a).sorted ≠ .null) {a b : Option α}
    (h : (optional f a).sorted = (optional f b).sorted) : a = b := by
  cases a with
  | none =>
    cases b with
    | none => rfl
    | some b => exact absurd h.symm (hnull b)
  | some a =>
    cases b with
    | none => exact absurd h (hnull a)
    | some b => rw [hinj h]

theorem optional_digest_injective {a b : Option Sha256}
    (h : (optional digestValue a).sorted = (optional digestValue b).sorted) : a = b :=
  optional_injective digestValue_injective (fun a => by simp [digestValue, Value.sorted]) h

theorem sortedItems_eq_map (items : List Value) : sortedItems items = items.map Value.sorted := by
  induction items with
  | nil => rfl
  | cons item items ih => rw [sortedItems, ih, List.map_cons]

section Record

variable {keys : List (List Char)} {values values' : List Value}

theorem map_fst_record (h : values.length = keys.length) :
    (keys.zip values).map Prod.fst = keys :=
  List.map_fst_zip h.ge

theorem map_snd_record (h : values.length = keys.length) :
    (keys.zip values).map Prod.snd = values :=
  List.map_snd_zip h.le

theorem record_inj (hkeys : keys.Nodup) (hv : values.length = keys.length)
    (hv' : values'.length = keys.length)
    (h : (record keys values).sorted = (record keys values').sorted) :
    sortedItems values = sortedItems values' := by
  rw [record, record, sorted_obj_inj ((map_fst_record hv).trans (map_fst_record hv').symm)
    (by rw [map_fst_record hv]; exact hkeys)] at h
  have hmap {w : List Value} (hw : w.length = keys.length) :
      (sortedFields (keys.zip w)).map Prod.snd = sortedItems w := by
    rw [sortedItems_eq_map, ← map_snd_record hw, sortedFields_eq_map, List.map_map, List.map_map]
    simp only [map_snd_record hw]
    rfl
  rw [← hmap hv, ← hmap hv', h]

theorem record_dict (hkeys : keys.Nodup) (hv : values.length = keys.length)
    (h : DictItems values) : (record keys values).Dict := by
  refine ⟨by rw [map_fst_record hv]; exact hkeys, dictFields_iff.mpr fun field hfield => ?_⟩
  exact dictItems_iff.mp h _ (List.of_mem_zip hfield).2

theorem record_plain (h : PlainItems values) : (record keys values).Plain :=
  plainFields_iff.mpr fun _ hfield => plainItems_iff.mp h _ (List.of_mem_zip hfield).2

end Record

theorem ContentDigest.keys_nodup : ContentDigest.keys.Nodup := by
  decide

theorem PhoibleProvenance.keys_nodup : PhoibleProvenance.keys.Nodup := by
  decide

theorem DatasetProvenance.keys_nodup : DatasetProvenance.keys.Nodup := by
  decide

theorem ModelProvenance.keys_nodup : ModelProvenance.keys.Nodup := by
  decide

theorem ContentDigest.dump_injective {a b : ContentDigest} (h : a.dump.sorted = b.dump.sorted) :
    a = b := by
  obtain ⟨name, sha256, sizeBytes⟩ := a
  obtain ⟨name', sha256', sizeBytes'⟩ := b
  have hvalues := record_inj ContentDigest.keys_nodup rfl rfl h
  simp only [sortedItems, List.cons.injEq, and_true] at hvalues
  obtain ⟨hname, hsha, hsize⟩ := hvalues
  simp only [Value.sorted, Value.str.injEq, Value.int.injEq, Int.natCast_inj] at hname hsize
  rw [hname, digestValue_injective hsha, hsize]

theorem PhoibleProvenance.dump_injective {a b : PhoibleProvenance}
    (h : a.dump.sorted = b.dump.sorted) : a = b := by
  obtain ⟨revision, sha256⟩ := a
  obtain ⟨revision', sha256'⟩ := b
  have hvalues := record_inj PhoibleProvenance.keys_nodup rfl rfl h
  simp only [sortedItems, List.cons.injEq, and_true] at hvalues
  obtain ⟨hrevision, hsha⟩ := hvalues
  simp only [Value.sorted, Value.str.injEq] at hrevision
  rw [hrevision, digestValue_injective hsha]

theorem DatasetProvenance.dump_injective {a b : DatasetProvenance}
    (h : a.dump.sorted = b.dump.sorted) : a = b := by
  obtain ⟨name, config, split, revision, selector, content⟩ := a
  obtain ⟨name', config', split', revision', selector', content'⟩ := b
  have hvalues := record_inj DatasetProvenance.keys_nodup rfl rfl h
  simp only [sortedItems, List.cons.injEq, and_true] at hvalues
  obtain ⟨hname, hconfig, hsplit, hrevision, hselector, hcontent⟩ := hvalues
  simp only [Value.sorted, Value.str.injEq] at hname hconfig hsplit hrevision
  rw [hname, hconfig, hsplit, hrevision, digestValue_injective hselector,
    optional_digest_injective hcontent]

theorem ModelProvenance.dump_injective {a b : ModelProvenance}
    (h : a.dump.sorted = b.dump.sorted) : a = b := by
  obtain ⟨backend, identifier, revision, artifact⟩ := a
  obtain ⟨backend', identifier', revision', artifact'⟩ := b
  have hvalues := record_inj ModelProvenance.keys_nodup rfl rfl h
  simp only [sortedItems, List.cons.injEq, and_true] at hvalues
  obtain ⟨hbackend, hidentifier, hrevision, hartifact⟩ := hvalues
  simp only [Value.sorted, Value.str.injEq] at hbackend hidentifier hrevision
  rw [hbackend, hidentifier, hrevision, optional_digest_injective hartifact]

theorem digests_injective {a b : List ContentDigest}
    (h : (Value.arr (a.map ContentDigest.dump)).sorted =
      (Value.arr (b.map ContentDigest.dump)).sorted) : a = b := by
  simp only [Value.sorted, Value.arr.injEq, sortedItems_eq_map, List.map_map] at h
  exact List.map_injective_iff.mpr (fun _ _ hdump => ContentDigest.dump_injective hdump) h

theorem operation_injective {a b : RunKind} (h : a.value.toList = b.value.toList) : a = b := by
  revert h
  cases a <;> cases b <;> decide

theorem determinismValue_injective {a b : DeterminismClass}
    (h : determinismValue a = determinismValue b) : a = b := by
  revert h
  cases a <;> cases b <;> decide

/-- Two manifests that differ at most in the masked fields and the parameters. -/
def AgreeElsewhere (expected observed : RunManifest) : Prop :=
  { expected with
    runId := observed.runId, startedAt := observed.startedAt, finishedAt := observed.finishedAt
    stopReason := observed.stopReason, parameters := observed.parameters } = observed

theorem agreeElsewhere_iff {e o : RunManifest} :
    AgreeElsewhere e o ↔
      ∀ field, field ∉ masked → field ≠ .parameters →
        (e.get field).sorted = (o.get field).sorted := by
  constructor
  · intro h field hmasked hparameters
    rw [← h]
    cases field <;> first | exact absurd rfl hparameters | exact absurd (by decide) hmasked | rfl
  · intro h
    have hstr {s t : List Char} (hst : (Value.str s).sorted = (Value.str t).sorted) : s = t := by
      simpa only [Value.sorted, Value.str.injEq] using hst
    have hproject := uuidText_injective (hstr (h .projectId (by decide) (by decide)))
    have hoperation := operation_injective (hstr (h .operation (by decide) (by decide)))
    have hcorpuskit := hstr (h .corpuskitVersion (by decide) (by decide))
    have hcorpusgen := hstr (h .corpusgenVersion (by decide) (by decide))
    have hespeak := optional_injective hstr (fun s => by simp [Value.sorted])
      (h .espeakVersion (by decide) (by decide))
    have hphoible := optional_injective PhoibleProvenance.dump_injective
      (fun _ => by simp [PhoibleProvenance.dump, record, Value.sorted])
      (h .phoible (by decide) (by decide))
    have hmodel := optional_injective ModelProvenance.dump_injective
      (fun _ => by simp [ModelProvenance.dump, record, Value.sorted])
      (h .model (by decide) (by decide))
    have hdataset := optional_injective DatasetProvenance.dump_injective
      (fun _ => by simp [DatasetProvenance.dump, record, Value.sorted])
      (h .dataset (by decide) (by decide))
    have hworker := sha256Hex_injective (List.append_cancel_left
      (hstr (h .workerImageDigest (by decide) (by decide))))
    have hprofile := hstr (h .runtimeProfile (by decide) (by decide))
    have hlanguage := hstr (h .language (by decide) (by decide))
    have htarget := hstr (h .targetSource (by decide) (by decide))
    have hunit := hstr (h .unit (by decide) (by decide))
    have hseed := optional_injective
      (fun {a b : Int} hab => by simpa only [Value.sorted, Value.int.injEq] using hab)
      (fun n => by simp [Value.sorted]) (h .seed (by decide) (by decide))
    have hinputs := digests_injective (h .inputDigests (by decide) (by decide))
    have houtputs := digests_injective (h .outputDigests (by decide) (by decide))
    have hdeterminism := determinismValue_injective (hstr (h .determinism (by decide) (by decide)))
    cases o
    rw [AgreeElsewhere, RunManifest.mk.injEq]
    exact ⟨hproject, rfl, hoperation, hcorpuskit, hcorpusgen, hespeak, hphoible, hmodel, hdataset,
      hworker, hprofile, hlanguage, htarget, hunit, rfl, hseed, hinputs, houtputs, rfl, rfl, rfl,
      hdeterminism⟩

/-- The masked bytes are one text exactly when every other field has one. -/
theorem maskedBytes_eq_iff {e o : RunManifest} :
    e.maskedBytes = o.maskedBytes ↔
      ∀ field, field ∉ masked → (e.get field).sorted = (o.get field).sorted := by
  have hkeys (m : RunManifest) :
      (Field.all.map fun field => (field.name, if field ∈ masked then .null else m.get field)).map
        Prod.fst = Field.all.map Field.name := by
    rw [List.map_map]
    rfl
  have hbytes : e.maskedBytes = o.maskedBytes ↔ _ :=
    ⟨fun h => dumps_injective (utf8_injective h), fun h => congrArg (fun v => utf8 (encode v)) h⟩
  rw [hbytes, sorted_obj_inj ((hkeys e).trans (hkeys o).symm) (by rw [hkeys]; exact Field.names_nodup),
    sortedFields_eq_map, sortedFields_eq_map, List.map_map, List.map_map, List.map_inj_left]
  constructor
  · intro h field hmasked
    have hfield := h field field.mem_all
    simp only [Function.comp_apply, if_neg hmasked, Prod.mk.injEq, true_and] at hfield
    exact hfield
  · intro h field _
    by_cases hmasked : field ∈ masked
    · simp only [Function.comp_apply, if_pos hmasked]
    · simp only [Function.comp_apply, if_neg hmasked, h field hmasked]

/-! ## Dumped values -/

theorem optional_dict {α : Type} {f : α → Value} (h : ∀ a, (f a).Dict) (a : Option α) :
    (optional f a).Dict := by
  cases a with
  | none => trivial
  | some a => exact h a

theorem optional_plain {α : Type} {f : α → Value} (h : ∀ a, (f a).Plain) (a : Option α) :
    (optional f a).Plain := by
  cases a with
  | none => trivial
  | some a => exact h a

theorem ContentDigest.dump_dict (digest : ContentDigest) : digest.dump.Dict :=
  record_dict ContentDigest.keys_nodup rfl ⟨trivial, trivial, trivial, trivial⟩

theorem PhoibleProvenance.dump_dict (phoible : PhoibleProvenance) : phoible.dump.Dict :=
  record_dict PhoibleProvenance.keys_nodup rfl ⟨trivial, trivial, trivial⟩

theorem ModelProvenance.dump_dict (model : ModelProvenance) : model.dump.Dict :=
  record_dict ModelProvenance.keys_nodup rfl
    ⟨trivial, trivial, trivial, optional_dict (f := digestValue) (fun _ => trivial) model.artifactSha256, trivial⟩

theorem DatasetProvenance.dump_dict (dataset : DatasetProvenance) : dataset.dump.Dict :=
  record_dict DatasetProvenance.keys_nodup rfl ⟨trivial, trivial, trivial, trivial, trivial,
    optional_dict (f := digestValue) (fun _ => trivial) dataset.contentSha256, trivial⟩

theorem ContentDigest.dump_plain (digest : ContentDigest) : digest.dump.Plain :=
  record_plain ⟨trivial, trivial, trivial, trivial⟩

theorem PhoibleProvenance.dump_plain (phoible : PhoibleProvenance) : phoible.dump.Plain :=
  record_plain ⟨trivial, trivial, trivial⟩

theorem ModelProvenance.dump_plain (model : ModelProvenance) : model.dump.Plain :=
  record_plain
    ⟨trivial, trivial, trivial, optional_plain (f := digestValue) (fun _ => trivial) model.artifactSha256, trivial⟩

theorem DatasetProvenance.dump_plain (dataset : DatasetProvenance) : dataset.dump.Plain :=
  record_plain ⟨trivial, trivial, trivial, trivial, trivial,
    optional_plain (f := digestValue) (fun _ => trivial) dataset.contentSha256, trivial⟩

theorem digests_dict (digests : List ContentDigest) :
    (Value.arr (digests.map ContentDigest.dump)).Dict := by
  induction digests with
  | nil => trivial
  | cons digest digests ih => exact ⟨digest.dump_dict, ih⟩

theorem digests_plain (digests : List ContentDigest) :
    (Value.arr (digests.map ContentDigest.dump)).Plain := by
  induction digests with
  | nil => trivial
  | cons digest digests ih => exact ⟨digest.dump_plain, ih⟩

theorem get_dict (m : RunManifest) (field : Field) : (m.get field).Dict := by
  cases field with
  | espeakVersion => exact optional_dict (f := Value.str) (fun _ => trivial) _
  | phoible => exact optional_dict PhoibleProvenance.dump_dict _
  | model => exact optional_dict ModelProvenance.dump_dict _
  | dataset => exact optional_dict DatasetProvenance.dump_dict _
  | parameters => exact m.parameters.loaded.dict
  | seed => exact optional_dict (f := Value.int) (fun _ => trivial) _
  | inputDigests => exact digests_dict _
  | outputDigests => exact digests_dict _
  | _ => trivial

/-- Only the parameters can hold a boolean or a float. -/
theorem get_plain (m : RunManifest) {field : Field} (h : field ≠ .parameters) :
    (m.get field).Plain := by
  cases field with
  | espeakVersion => exact optional_plain (f := Value.str) (fun _ => trivial) _
  | phoible => exact optional_plain PhoibleProvenance.dump_plain _
  | model => exact optional_plain ModelProvenance.dump_plain _
  | dataset => exact optional_plain DatasetProvenance.dump_plain _
  | parameters => exact absurd rfl h
  | seed => exact optional_plain (f := Value.int) (fun _ => trivial) _
  | inputDigests => exact digests_plain _
  | outputDigests => exact digests_plain _
  | _ => trivial

end CorpusKit.Manifests
