import CorpusKit.Domain.ManifestJson
import CorpusKit.Properties.Replays
import CorpusKit.Properties.RunSpecs

/-! # Manifests written and read

The canonical bytes of a manifest are read in strict mode as the manifest they were
written for: the JSON reader finds the sorted dump, every field is in its type, and
the parameters are normalized to themselves. -/

namespace CorpusKit.Manifests

open Json Json.Reader Documents SpecIntegrity

variable {p : Pydantic} {hash : List Char → Sha256} {m : RunManifest}

/-! ## Readable values -/

section Readable

variable {float : List Char → Option FloatText}

mutual

/-- A dictionary of numbers that Python writes and reads is readable. -/
theorem readable (v : Value) (hdict : v.Dict) (hwritable : writable v = true)
    (hfloats : Floats float v) : Readable float v := by
  match v with
  | .null | .bool b | .str s => trivial
  | .int n =>
    rw [writable, decide_eq_true_eq] at hwritable
    exact hwritable
  | .float x => exact hfloats
  | .arr items => exact readableItems items hdict hwritable hfloats
  | .obj fields => exact ⟨hdict.1, readableFields fields hdict.2 hwritable hfloats⟩

theorem readableItems (items : List Value) (hdict : Json.DictItems items)
    (hwritable : writableItems items = true) (hfloats : FloatsItems float items) :
    ReadableItems float items := by
  match items with
  | [] => trivial
  | item :: items =>
    rw [writableItems, Bool.and_eq_true] at hwritable
    exact ⟨readable item hdict.1 hwritable.1 hfloats.1,
      readableItems items hdict.2 hwritable.2 hfloats.2⟩

theorem readableFields (fields : List (List Char × Value)) (hdict : Json.DictFields fields)
    (hwritable : writableFields fields = true) (hfloats : FloatsFields float fields) :
    ReadableFields float fields := by
  match fields with
  | [] => trivial
  | (key, value) :: fields =>
    rw [writableFields, Bool.and_eq_true] at hwritable
    exact ⟨readable value hdict.1 hwritable.1 hfloats.1,
      readableFields fields hdict.2 hwritable.2 hfloats.2⟩

end

end Readable

mutual

theorem nesting_le (v : Value) : nesting v ≤ height v + 1 := by
  match v with
  | .null | .bool b | .int n | .float x | .str s => exact Nat.zero_le _
  | .arr items => exact Nat.succ_le_succ (nestingItems_le items)
  | .obj fields => exact Nat.succ_le_succ (nestingFields_le fields)

theorem nestingItems_le (items : List Value) : nestingItems items ≤ heightItems items := by
  match items with
  | [] => exact Nat.le_refl 0
  | item :: items => exact max_le_max (nesting_le item) (nestingItems_le items)

theorem nestingFields_le (fields : List (List Char × Value)) :
    nestingFields fields ≤ heightFields fields := by
  match fields with
  | [] => exact Nat.le_refl 0
  | (key, value) :: fields => exact max_le_max (nesting_le value) (nestingFields_le fields)

end

/-! ## The bytes of a value -/

theorem fromUTF8_utf8 (text : List Char) :
    String.fromUTF8? (utf8 text) = some (String.ofList text) := by
  rw [utf8, String.fromUTF8?, dif_pos (String.isValidUTF8 _)]
  rfl

/-- **Canonical bytes are read.** The bytes of a dictionary give its sorted value. -/
theorem readJson_dumps {float : List Char → Option FloatText}
    {fields : List (List Char × Value)} (hdict : (Value.obj fields).Dict)
    (hwritable : writable (.obj fields) = true) (hfloats : Floats float (.obj fields))
    (hheight : height (.obj fields) < recursionLimit) :
    readJson float (utf8 (dumps (.obj fields))) = some (Value.obj fields).sorted := by
  have hshape := sameShape_sorted (.obj fields)
  have hreadable : Readable float (Value.obj fields).sorted :=
    readable _ hdict.loaded.dict (hshape.writable.trans hwritable) (floats_sorted _ hfloats)
  have hnesting : nesting (Value.obj fields).sorted ≤ recursionLimit :=
    (nesting_le _).trans (by rw [hshape.height]; exact hheight)
  rw [readJson, fromUTF8_utf8, Option.bind_eq_bind, Option.bind_some, String.toList_ofList, dumps]
  rw [Value.sorted] at hreadable hnesting ⊢
  rw [loads_encode hreadable hnesting]
  exact value?_decoded _

/-! ## Values in their types -/

theorem isLowerHex_hexDigit {d : Nat} (h : d < 16) : isLowerHex (hexDigit d) = true := by
  have hall : ∀ d : Fin 16, isLowerHex (hexDigit d.val) = true := by decide
  exact hall ⟨d, h⟩

theorem hexValue_hexDigit {d : Nat} (h : d < 16) : hexValue (hexDigit d) = some d := by
  have hall : ∀ d : Fin 16, hexValue (hexDigit d.val) = some d.val := by decide
  exact hall ⟨d, h⟩

theorem unicodeValue_hexDigits (count n : Nat) :
    unicodeValue (hexDigits count n) = n % 16 ^ count := by
  induction count generalizing n with
  | zero => rw [Nat.pow_zero, Nat.mod_one]; rfl
  | succ count ih =>
    have hlast := hexValue_hexDigit (Nat.mod_lt n (by decide : 0 < 16))
    have hrest := ih (n / 16)
    rw [unicodeValue] at hrest ⊢
    rw [hexDigits, List.foldl_append, hrest, List.foldl_cons, List.foldl_nil, hlast,
      Option.getD_some, Nat.pow_succ', Nat.mod_mul, Nat.add_comm]

theorem digest_hex (sha256 : Sha256) : digest (.str (sha256Hex sha256)) = some sha256 := by
  have hhex : (sha256Hex sha256).all isLowerHex = true := by
    refine List.all_eq_true.mpr fun c hc => ?_
    obtain ⟨d, hd, rfl⟩ := hexDigits_mem hc
    exact isLowerHex_hexDigit hd
  have hlt : sha256.toNat < 16 ^ 64 := sha256.isLt
  have hvalue : unicodeValue (sha256Hex sha256) = sha256.toNat := by
    rw [sha256Hex, unicodeValue_hexDigits, Nat.mod_eq_of_lt hlt]
  rw [digest, str, Option.bind_eq_bind, Option.bind_some, if_pos ⟨hexDigits_length _ _, hhex⟩,
    hvalue, BitVec.ofNat_toNat, BitVec.setWidth_eq]

theorem imageDigest_hex (sha256 : Sha256) :
    imageDigest (.str ("sha256:".toList ++ sha256Hex sha256)) = some sha256 := by
  have hseven : "sha256:".toList.length = 7 := rfl
  rw [imageDigest, str, Option.bind_eq_bind, Option.bind_some, List.take_left' hseven, if_pos rfl,
    List.drop_left' hseven, digest_hex]

theorem natural_cast (n : Nat) : natural (.int n) = some n := by
  rw [natural, int, Option.bind_some, if_pos (Int.natCast_nonneg n), Int.toNat_natCast]

theorem member_operation (kind : RunKind) :
    member RunKind.all (fun kind => kind.value.toList) (.str kind.value.toList) = some kind := by
  cases kind <;> decide

theorem member_stopReason (reason : StopReason) :
    member StopReason.all StopReason.value (.str reason.value) = some reason := by
  cases reason <;> decide

theorem member_determinism (determinism : DeterminismClass) :
    member DeterminismClass.all determinismValue (.str (determinismValue determinism)) =
      some determinism := by
  cases determinism <;> decide

theorem uuid_uuidText (id : UuidBits) : uuid p (.str (uuidText id)) = some id := p.uuid_text id

theorem timestamp_jsonTimestamp {t : UtcTime} (h : IsDate t) :
    timestamp p (.str (jsonTimestamp t)) = some t := by
  rw [timestamp, str, Option.bind_eq_bind, Option.bind_some, p.datetime_utc t h]
  rfl

/-! ## Fields -/

section Fields

variable {α : Type} {fields : List (List Char × Value)} {read : Value → Option α}
  {key : List Char}

/-- The fields as they are written. -/
def written (fields : List (List Char × Value)) : List (List Char × Value) :=
  (sortedFields fields).insertionSort fun a b => a.1 ≤ b.1

theorem keys_sortedFields (fields : List (List Char × Value)) :
    (sortedFields fields).map Prod.fst = fields.map Prod.fst := by
  rw [sortedFields_eq_map, List.map_map]
  rfl

theorem lookup_written (h : (fields.map Prod.fst).Nodup) (key : List Char) :
    (written fields).lookup key = (fields.lookup key).map Value.sorted := by
  have hkeys : ((sortedFields fields).map Prod.fst).Nodup := by
    rw [keys_sortedFields]
    exact h
  rw [written, ← lookup_perm (perm_sort _).symm hkeys, sortedFields_lookup]

theorem onlyKeys_written {keys : List (List Char)} (h : ∀ key ∈ fields.map Prod.fst, key ∈ keys) :
    onlyKeys (written fields) keys = true := by
  refine List.all_eq_true.mpr fun field hfield => ?_
  have hmem := List.mem_map_of_mem (f := Prod.fst) ((perm_sort _).subset hfield)
  rw [keys_sortedFields] at hmem
  exact List.contains_iff_mem.mpr (h _ hmem)

theorem required_written (hnodup : (fields.map Prod.fst).Nodup) {v : Value} {a : α}
    (hlookup : fields.lookup key = some v) (hread : read v.sorted = some a) :
    required (written fields) read key = some a := by
  rw [required, lookup_written hnodup, hlookup]
  exact hread

theorem nullable_optional {dump : α → Value} (hnull : ∀ a, (dump a).sorted ≠ .null)
    (value : Option α) (hread : ∀ a ∈ value, read (dump a).sorted = some a) :
    nullable read (optional dump value).sorted = some value := by
  cases value with
  | none => rfl
  | some a =>
    have ha := hread a rfl
    have hne := hnull a
    rw [optional]
    revert ha hne
    generalize (dump a).sorted = v
    intro ha hne
    cases v with
    | null => exact absurd rfl hne
    | _ => rw [nullable, ha, Option.map_some]; exact fun h => by cases h

theorem defaulted_written (hnodup : (fields.map Prod.fst).Nodup) {dump : α → Value}
    (hnull : ∀ a, (dump a).sorted ≠ .null) (value : Option α)
    (hlookup : fields.lookup key = some (optional dump value))
    (hread : ∀ a ∈ value, read (dump a).sorted = some a) :
    defaulted (written fields) read key = some value := by
  rw [defaulted, lookup_written hnodup, hlookup]
  exact nullable_optional hnull value hread

end Fields

/-! ## Records -/

def ContentDigest.fields (digest : ContentDigest) : List (List Char × Value) :=
  ContentDigest.keys.zip [.str digest.name, digestValue digest.sha256, .int digest.sizeBytes]

theorem ContentDigest.read_dump {digest : ContentDigest} (h : digest.valid = true) :
    ContentDigest.read digest.dump.sorted = some digest := by
  have hnodup : (digest.fields.map Prod.fst).Nodup := ContentDigest.keys_nodup
  have hkeys : onlyKeys (written digest.fields) ContentDigest.keys = true :=
    onlyKeys_written fun key hkey => hkey
  have hname : required (written digest.fields) str "name".toList = some digest.name :=
    required_written hnodup rfl rfl
  have hsha : required (written digest.fields) Manifests.digest "sha256".toList =
      some digest.sha256 := required_written hnodup rfl (digest_hex digest.sha256)
  have hsize : required (written digest.fields) natural "size_bytes".toList =
      some digest.sizeBytes := required_written hnodup rfl (natural_cast digest.sizeBytes)
  show ContentDigest.read (.obj (written digest.fields)) = _
  rw [ContentDigest.read, hkeys, hname, hsha, hsize]
  exact if_pos h

theorem ContentDigest.read_dumps {digests : List ContentDigest}
    (h : digests.all ContentDigest.valid = true) :
    items ContentDigest.read (Value.arr (digests.map ContentDigest.dump)).sorted =
      some digests := by
  rw [Value.sorted, items]
  induction digests with
  | nil => rfl
  | cons digest digests ih =>
    rw [List.all_cons, Bool.and_eq_true] at h
    rw [List.map_cons, sortedItems, List.mapM_cons, ContentDigest.read_dump h.1, ih h.2]
    rfl

def PhoibleProvenance.fields (phoible : PhoibleProvenance) : List (List Char × Value) :=
  PhoibleProvenance.keys.zip [.str phoible.revision, digestValue phoible.sha256]

theorem PhoibleProvenance.read_dump {phoible : PhoibleProvenance} (h : phoible.valid = true) :
    PhoibleProvenance.read phoible.dump.sorted = some phoible := by
  have hnodup : (phoible.fields.map Prod.fst).Nodup := PhoibleProvenance.keys_nodup
  have hkeys : onlyKeys (written phoible.fields) PhoibleProvenance.keys = true :=
    onlyKeys_written fun key hkey => hkey
  have hrevision : required (written phoible.fields) str "revision".toList =
      some phoible.revision := required_written hnodup rfl rfl
  have hsha : required (written phoible.fields) Manifests.digest "sha256".toList =
      some phoible.sha256 := required_written hnodup rfl (digest_hex phoible.sha256)
  show PhoibleProvenance.read (.obj (written phoible.fields)) = _
  rw [PhoibleProvenance.read, hkeys, hrevision, hsha]
  exact if_pos h

theorem digestValue_ne_null (sha256 : Sha256) : (digestValue sha256).sorted ≠ .null := by
  rw [digestValue, Value.sorted]
  exact fun h => by cases h

def DatasetProvenance.fields (dataset : DatasetProvenance) : List (List Char × Value) :=
  DatasetProvenance.keys.zip [.str dataset.name, .str dataset.config, .str dataset.split,
    .str dataset.revision, digestValue dataset.selectorSha256,
    optional digestValue dataset.contentSha256]

theorem DatasetProvenance.read_dump {dataset : DatasetProvenance} (h : dataset.valid = true) :
    DatasetProvenance.read dataset.dump.sorted = some dataset := by
  have hnodup : (dataset.fields.map Prod.fst).Nodup := DatasetProvenance.keys_nodup
  have hkeys : onlyKeys (written dataset.fields) DatasetProvenance.keys = true :=
    onlyKeys_written fun key hkey => hkey
  have hname : required (written dataset.fields) str "name".toList = some dataset.name :=
    required_written hnodup rfl rfl
  have hconfig : required (written dataset.fields) str "config".toList = some dataset.config :=
    required_written hnodup rfl rfl
  have hsplit : required (written dataset.fields) str "split".toList = some dataset.split :=
    required_written hnodup rfl rfl
  have hrevision : required (written dataset.fields) str "revision".toList =
      some dataset.revision := required_written hnodup rfl rfl
  have hselector : required (written dataset.fields) digest "selector_sha256".toList =
      some dataset.selectorSha256 :=
    required_written hnodup rfl (digest_hex dataset.selectorSha256)
  have hcontent : defaulted (written dataset.fields) digest "content_sha256".toList =
      some dataset.contentSha256 :=
    defaulted_written hnodup digestValue_ne_null _ rfl fun content _ => digest_hex content
  show DatasetProvenance.read (.obj (written dataset.fields)) = _
  rw [DatasetProvenance.read, hkeys, hname, hconfig, hsplit, hrevision, hselector, hcontent]
  exact if_pos h

def ModelProvenance.fields (model : ModelProvenance) : List (List Char × Value) :=
  ModelProvenance.keys.zip [.str model.backend, .str model.identifier, .str model.revision,
    optional digestValue model.artifactSha256]

theorem ModelProvenance.read_dump {model : ModelProvenance} (h : model.valid = true) :
    ModelProvenance.read model.dump.sorted = some model := by
  have hnodup : (model.fields.map Prod.fst).Nodup := ModelProvenance.keys_nodup
  have hkeys : onlyKeys (written model.fields) ModelProvenance.keys = true :=
    onlyKeys_written fun key hkey => hkey
  have hbackend : required (written model.fields) str "backend".toList = some model.backend :=
    required_written hnodup rfl rfl
  have hidentifier : required (written model.fields) str "identifier".toList =
      some model.identifier := required_written hnodup rfl rfl
  have hrevision : required (written model.fields) str "revision".toList =
      some model.revision := required_written hnodup rfl rfl
  have hartifact : defaulted (written model.fields) digest "artifact_sha256".toList =
      some model.artifactSha256 :=
    defaulted_written hnodup digestValue_ne_null _ rfl fun content _ => digest_hex content
  show ModelProvenance.read (.obj (written model.fields)) = _
  rw [ModelProvenance.read, hkeys, hbackend, hidentifier, hrevision, hartifact]
  exact if_pos h

/-! ## The fields of a manifest -/

def RunManifest.fields (m : RunManifest) : List (List Char × Value) :=
  Field.all.map fun field => (field.name, m.get field)

theorem RunManifest.keys_fields (m : RunManifest) :
    m.fields.map Prod.fst = Field.all.map Field.name := by
  rw [RunManifest.fields, List.map_map]
  rfl

theorem RunManifest.fields_nodup (m : RunManifest) : (m.fields.map Prod.fst).Nodup := by
  rw [m.keys_fields]
  exact Field.names_nodup

theorem RunManifest.lookup_fields (m : RunManifest) (field : Field) :
    m.fields.lookup field.name = some (m.get field) :=
  lookup_of_mem m.fields_nodup (List.mem_map.mpr ⟨field, field.mem_all, rfl⟩)

theorem RunManifest.required_field {α : Type} (m : RunManifest) (read : Value → Option α)
    (field : Field) {a : α} (h : read (m.get field).sorted = some a) :
    required (written m.fields) read field.name = some a :=
  required_written m.fields_nodup (m.lookup_fields field) h

theorem RunManifest.defaulted_field {α : Type} (m : RunManifest) (read : Value → Option α)
    (dump : α → Value) (field : Field) {value : Option α} (hget : m.get field = optional dump value)
    (hnull : ∀ a, (dump a).sorted ≠ .null) (h : ∀ a ∈ value, read (dump a).sorted = some a) :
    defaulted (written m.fields) read field.name = some value :=
  defaulted_written m.fields_nodup hnull value
    ((m.lookup_fields field).trans (congrArg some hget)) h

theorem document_sorted (document : Document) : document.value.sorted = document.value :=
  document.loaded.sorted

/-- A document is found as the dictionary it is. -/
theorem dictionary_document {dictionary : Dictionary} {key : List Char} {document : Document}
    (hlookup : dictionary.fields.lookup key = some document.value) :
    Dictionary.dictionary dictionary key = some (dictionaryOf document) := by
  unfold Dictionary.dictionary
  split
  · next fields h =>
    have hfields : Value.obj fields = document.value := Option.some.inj (h.symm.trans hlookup)
    cases hfields
    rfl
  · next hnone => exact absurd hlookup (hnone _)

theorem RunManifest.dictionary_parameters (m : RunManifest)
    (hdict : (Value.obj (written m.fields)).Dict) :
    Dictionary.dictionary ⟨written m.fields, hdict⟩ Field.parameters.name =
      some (dictionaryOf m.parameters) := by
  refine dictionary_document ?_
  rw [lookup_written m.fields_nodup, m.lookup_fields, Option.map_some, RunManifest.get,
    document_sorted]

/-! ## The validators -/

theorem selectsDataset_of_matches {source : List (List Char × Value)}
    {dataset : Option DatasetProvenance} (h : matchesSelector hash source dataset) :
    selectsDataset hash dataset source = true := by
  obtain ⟨selector, hspec, provenance, hmem, hname, hconfig, hsplit, hrevision, hsha⟩ := h
  cases hmem
  unfold selectsDataset
  rw [hspec]
  show selects hash selector provenance = true
  rw [selects, required, required, required, required, hname, hconfig, hsplit, hrevision, hsha]
  simp only [Option.bind_some, str, BEq.rfl, Bool.and_true]

theorem RunManifest.Valid.constrained (h : m.Valid hash) : m.constrained = true := by
  have hprofile := h.runtimeProfile
  have hinputs := h.inputDigests
  have houtputs := h.outputDigests
  rw [Bool.and_eq_true] at hprofile
  simp only [validDigests, Bool.and_eq_true] at hinputs houtputs
  simp only [RunManifest.constrained, h.corpuskitVersion, h.corpusgenVersion, h.espeakVersion,
    hprofile.1, hprofile.2, h.language, h.targetSource, h.unit, hinputs.1.1.1, hinputs.1.1.2,
    houtputs.1.1.1, houtputs.1.1.2, Bool.and_true]

theorem RunManifest.Valid.validateManifest (h : m.Valid hash) : m.validateManifest hash = true := by
  have hinputs := h.inputDigests
  have houtputs := h.outputDigests
  simp only [validDigests, Bool.and_eq_true] at hinputs houtputs
  have htarget : (m.targetSource.map Char.toLower == "phoible".toList && m.phoible.isNone) =
      false := by
    cases hsource : (m.targetSource.map Char.toLower == "phoible".toList) with
    | false => rfl
    | true =>
      have hsome := h.target (eq_of_beq hsource)
      rw [Bool.true_and, ← Option.not_isSome, hsome]
      rfl
  have hbacked : (isModelBacked m.operation && m.model.isNone) = false := by
    cases hkind : isModelBacked m.operation with
    | false => rfl
    | true =>
      rw [Bool.true_and, ← Option.not_isSome, h.backed hkind]
      rfl
  have hselector : (m.operation != .generateRepository ||
      (huggingFaceSource m.parameters).all (selectsDataset hash m.dataset)) = true := by
    rw [Bool.or_eq_true]
    by_cases hoperation : m.operation = .generateRepository
    · refine .inr ?_
      cases hsource : huggingFaceSource m.parameters with
      | none => rfl
      | some source => exact selectsDataset_of_matches (h.selector hoperation source hsource)
    · exact .inl (bne_iff_ne.mpr hoperation)
  rw [RunManifest.validateManifest, htarget, hbacked, hselector, decide_eq_true h.finish,
    hinputs.2, houtputs.2]
  rfl

/-! ## Manifests read back -/

theorem all_mem {α : Type} {value : Option α} {check : α → Bool} (h : value.all check = true)
    {a : α} (ha : a ∈ value) : check a = true := by
  cases ha
  exact h

/-- A manifest that finalization can build and write: a valid one, whose numbers Python
writes and pydantic reads, at times of the calendar. -/
structure RunManifest.Storable (p : Pydantic) (hash : List Char → Sha256) (m : RunManifest) :
    Prop where
  valid : m.Valid hash
  floats : Floats p.float m.parameters.value
  seed : m.seed.all (fun n => writable (.int n)) = true
  startedAt : IsDate m.startedAt
  finishedAt : IsDate m.finishedAt

theorem RunManifest.modelValidate_written (h : m.Storable p hash)
    (hdict : (Value.obj (written m.fields)).Dict) :
    RunManifest.modelValidate p hash ⟨written m.fields, hdict⟩ = some m := by
  obtain ⟨spec, specSha256, hspec⟩ := h.valid.parameters
  have hinputs := h.valid.inputDigests
  have houtputs := h.valid.outputDigests
  simp only [validDigests, Bool.and_eq_true] at hinputs houtputs
  have hkeys : onlyKeys (written m.fields) (Field.all.map Field.name) = true :=
    onlyKeys_written fun key hkey => m.keys_fields ▸ hkey
  have hversion : ((written m.fields).lookup Field.schemaVersion.name).all
      (fun v => str v == some schemaVersion) = true := by
    rw [lookup_written m.fields_nodup, m.lookup_fields]
    exact BEq.rfl
  have hproject := m.required_field _ .projectId (uuid_uuidText (p := p) m.projectId)
  have hrun := m.required_field _ .runId (uuid_uuidText (p := p) m.runId)
  have hoperation := m.required_field _ .operation (member_operation m.operation)
  have hcorpuskit := m.required_field str .corpuskitVersion rfl
  have hcorpusgen := m.required_field str .corpusgenVersion rfl
  have hespeak := m.defaulted_field str Value.str .espeakVersion rfl
    (fun _ h => by cases h) fun _ _ => rfl
  have hphoible := m.defaulted_field _ _ .phoible rfl (fun _ h => by cases h) fun phoible hmem =>
    PhoibleProvenance.read_dump (all_mem h.valid.phoible hmem)
  have hmodel := m.defaulted_field _ _ .model rfl (fun _ h => by cases h) fun model hmem =>
    ModelProvenance.read_dump (all_mem h.valid.model hmem)
  have hdataset := m.defaulted_field _ _ .dataset rfl (fun _ h => by cases h) fun dataset hmem =>
    DatasetProvenance.read_dump (all_mem h.valid.dataset hmem)
  have hworker := m.required_field _ .workerImageDigest (imageDigest_hex m.workerImageDigest)
  have hprofile := m.required_field str .runtimeProfile rfl
  have hlanguage := m.required_field str .language rfl
  have htarget := m.required_field str .targetSource rfl
  have hunit := m.required_field str .unit rfl
  have hparameters := m.dictionary_parameters hdict
  have hagain := normalizeRunSpec_again hspec
  have hseed := m.defaulted_field int Value.int .seed rfl
    (fun _ h => by cases h) fun _ _ => rfl
  have hinput := m.required_field _ .inputDigests (ContentDigest.read_dumps hinputs.1.2)
  have houtput := m.required_field _ .outputDigests (ContentDigest.read_dumps houtputs.1.2)
  have hstarted := m.required_field _ .startedAt (timestamp_jsonTimestamp (p := p) h.startedAt)
  have hfinished := m.required_field _ .finishedAt (timestamp_jsonTimestamp (p := p) h.finishedAt)
  have hstop := m.required_field _ .stopReason (member_stopReason m.stopReason)
  have hdeterminism := m.required_field _ .determinism (member_determinism m.determinism)
  rw [RunManifest.modelValidate]
  simp only [hkeys, hversion, hproject, hrun, hoperation, hcorpuskit, hcorpusgen, hespeak, hphoible,
    hmodel, hdataset, hworker, hprofile, hlanguage, htarget, hunit, hparameters, hagain, hseed,
    hinput, houtput, hstarted, hfinished, hstop, hdeterminism, Option.bind_eq_bind,
    Option.bind_some, guard_true, Option.pure_def, Except.toOption]
  refine if_pos ?_
  rw [Bool.and_eq_true]
  exact ⟨h.valid.constrained, h.valid.validateManifest⟩

/-! ### Numbers and levels -/

theorem length_digits_le {n : Nat} (h : n ≤ 100 * 1024 * 1024) :
    (Nat.toDigits 10 n).length ≤ 4300 := by
  have hlt : n < 10 ^ 9 := by omega
  have hnine := (Nat.length_toDigits_le_iff (by decide) (by decide)).mpr hlt
  exact hnine.trans (by decide)

theorem writable_optional {α : Type} {dump : α → Value} {value : Option α}
    (h : ∀ a ∈ value, writable (dump a) = true) : writable (optional dump value) = true := by
  cases value with
  | none => rfl
  | some a => exact h a rfl

theorem height_optional {α : Type} {dump : α → Value} {n : Nat} (h : ∀ a, height (dump a) ≤ n)
    (value : Option α) : height (optional dump value) ≤ n := by
  cases value with
  | none => exact Nat.zero_le n
  | some a => exact h a

theorem height_digestValue (sha256 : Sha256) : height (digestValue sha256) ≤ 0 := Nat.le_refl 0

theorem ContentDigest.writable_dump {digest : ContentDigest} (h : digest.valid = true) :
    writable digest.dump = true := by
  rw [ContentDigest.valid, Bool.and_eq_true, decide_eq_true_eq] at h
  have hsize := length_digits_le h.2
  simp [ContentDigest.dump, record, ContentDigest.keys, digestValue, writable, writableFields,
    hsize]

theorem ContentDigest.height_dump (digest : ContentDigest) : height digest.dump ≤ 1 := by
  simp [ContentDigest.dump, record, ContentDigest.keys, digestValue, height, heightFields]

theorem writable_digests {digests : List ContentDigest}
    (h : digests.all ContentDigest.valid = true) :
    writable (.arr (digests.map ContentDigest.dump)) = true := by
  rw [writable]
  induction digests with
  | nil => rfl
  | cons digest digests ih =>
    rw [List.all_cons, Bool.and_eq_true] at h
    rw [List.map_cons, writableItems, ContentDigest.writable_dump h.1, ih h.2]
    rfl

theorem height_digests (digests : List ContentDigest) :
    height (.arr (digests.map ContentDigest.dump)) ≤ 2 := by
  rw [height]
  induction digests with
  | nil => exact Nat.zero_le 2
  | cons digest digests ih => exact max_le (Nat.succ_le_succ digest.height_dump) ih

/-- Beside the parameters there is nothing deeper than a record in a list. -/
theorem height_get (m : RunManifest) {field : Field} (h : field ≠ .parameters) :
    height (m.get field) ≤ 2 := by
  cases field with
  | espeakVersion => exact height_optional (fun _ => Nat.zero_le 2) _
  | phoible =>
    refine height_optional (fun phoible => ?_) _
    simp [PhoibleProvenance.dump, record, PhoibleProvenance.keys, digestValue, height, heightFields]
  | model =>
    refine height_optional (fun model => ?_) _
    have hartifact := height_optional height_digestValue model.artifactSha256
    simp [ModelProvenance.dump, record, ModelProvenance.keys, height, heightFields,
      Nat.le_zero.mp hartifact]
  | dataset =>
    refine height_optional (fun dataset => ?_) _
    have hcontent := height_optional height_digestValue dataset.contentSha256
    simp [DatasetProvenance.dump, record, DatasetProvenance.keys, digestValue, height,
      heightFields, Nat.le_zero.mp hcontent]
  | parameters => exact absurd rfl h
  | seed => exact height_optional (fun _ => Nat.zero_le 2) _
  | inputDigests => exact height_digests _
  | outputDigests => exact height_digests _
  | _ => exact Nat.zero_le 2

theorem RunManifest.height_fields (h : m.Valid hash) : height (.obj m.fields) < recursionLimit := by
  obtain ⟨spec, specSha256, hspec⟩ := h.parameters
  have hparameters : height m.parameters.value ≤ specLimits.maxDepth := by
    obtain ⟨encoded, hnormalized, -⟩ := normalizeRunSpec_eq_ok.mp hspec
    obtain ⟨⟨-, -, hdepth, -⟩, -⟩ := normalize_eq_ok.mp hnormalized
    rw [normalizeRunSpec_value hspec, (sameShape_sorted _).height]
    exact hdepth
  have hfields : heightFields m.fields ≤ 21 := by
    refine heightFields_le.mpr fun field hfield => ?_
    obtain ⟨name, -, rfl⟩ := List.mem_map.mp hfield
    by_cases hname : name = .parameters
    · rw [hname]
      exact Nat.succ_le_succ hparameters
    · exact Nat.succ_le_succ ((height_get m hname).trans (by decide))
  exact Nat.lt_of_le_of_lt hfields (by decide)

theorem RunManifest.writable_get (h : m.Storable p hash) (field : Field) :
    writable (m.get field) = true := by
  have hinputs := h.valid.inputDigests
  have houtputs := h.valid.outputDigests
  simp only [validDigests, Bool.and_eq_true] at hinputs houtputs
  cases field with
  | espeakVersion => exact writable_optional fun _ _ => rfl
  | phoible => exact writable_optional fun _ _ => rfl
  | model =>
    refine writable_optional fun model _ => ?_
    have hartifact : writable (optional digestValue model.artifactSha256) = true :=
      writable_optional fun _ _ => rfl
    simp [ModelProvenance.dump, record, ModelProvenance.keys, writable, writableFields, hartifact]
  | dataset =>
    refine writable_optional fun dataset _ => ?_
    have hcontent : writable (optional digestValue dataset.contentSha256) = true :=
      writable_optional fun _ _ => rfl
    simp [DatasetProvenance.dump, record, DatasetProvenance.keys, digestValue, writable,
      writableFields, hcontent]
  | parameters =>
    obtain ⟨spec, specSha256, hspec⟩ := h.valid.parameters
    obtain ⟨encoded, hnormalized, -⟩ := normalizeRunSpec_eq_ok.mp hspec
    obtain ⟨⟨-, -, -, hwritable, -⟩, -⟩ := normalize_eq_ok.mp hnormalized
    show writable m.parameters.value = true
    rw [normalizeRunSpec_value hspec, (sameShape_sorted _).writable]
    exact hwritable
  | seed => exact writable_optional fun n hn => all_mem h.seed hn
  | inputDigests => exact writable_digests hinputs.1.2
  | outputDigests => exact writable_digests houtputs.1.2
  | _ => rfl

theorem RunManifest.writable_fields (h : m.Storable p hash) : writable (.obj m.fields) = true := by
  refine writableFields_iff.mpr fun field hfield => ?_
  obtain ⟨name, -, rfl⟩ := List.mem_map.mp hfield
  exact RunManifest.writable_get h name

theorem RunManifest.floats_fields (h : m.Storable p hash) : Floats p.float (.obj m.fields) := by
  refine floatsFields_iff.mpr fun field hfield => ?_
  obtain ⟨name, -, rfl⟩ := List.mem_map.mp hfield
  by_cases hname : name = .parameters
  · rw [hname]
    exact h.floats
  · exact floats_plain _ (get_plain m hname)

theorem RunManifest.fields_dict (m : RunManifest) : (Value.obj m.fields).Dict := by
  refine ⟨m.fields_nodup, dictFields_iff.mpr fun field hfield => ?_⟩
  obtain ⟨name, -, rfl⟩ := List.mem_map.mp hfield
  exact get_dict m name

theorem modelValidateJson_of_read (hash : List Char → Sha256) {content : ByteArray}
    {fields : List (List Char × Value)} (hread : readJson p.float content = some (.obj fields)) :
    ∃ hdict, RunManifest.modelValidateJson p hash content =
      RunManifest.modelValidate p hash ⟨fields, hdict⟩ := by
  refine ⟨readJson_dict hread, ?_⟩
  unfold RunManifest.modelValidateJson
  split
  · next fields' hfields =>
    have hsame : Value.obj fields' = .obj fields := Option.some.inj (hfields.symm.trans hread)
    cases hsame
    rfl
  · next hnone => exact absurd hread (hnone _)

/-- **The manifest that was written is read.** -/
theorem RunManifest.modelValidateJson_canonicalBytes (h : m.Storable p hash) :
    RunManifest.modelValidateJson p hash m.canonicalBytes = some m := by
  have hread : readJson p.float m.canonicalBytes = some (.obj (written m.fields)) :=
    readJson_dumps m.fields_dict (RunManifest.writable_fields h) (RunManifest.floats_fields h)
      (RunManifest.height_fields h.valid)
  obtain ⟨hdict, hvalidate⟩ := modelValidateJson_of_read hash hread
  rw [hvalidate]
  exact RunManifest.modelValidate_written h hdict

/-! ## The bytes determine the manifest -/

theorem jsonTimestamp_injective {t u : UtcTime} (h : jsonTimestamp t = jsonTimestamp u) :
    t = u := by
  obtain ⟨y, mo, d, hh, mi, sec, us, hdate, hclock⟩ := t
  obtain ⟨y', mo', d', hh', mi', sec', us', hdate', hclock'⟩ := u
  unfold jsonTimestamp at h
  dsimp only at h
  obtain ⟨rfl, h₁⟩ := padded_append_inj (by decide) (by omega) (by omega) h
  obtain ⟨rfl, h₂⟩ := padded_append_inj (by decide) (by omega) (by omega) (List.cons.inj h₁).2
  obtain ⟨rfl, h₃⟩ := padded_append_inj (by decide) (by omega) (by omega) (List.cons.inj h₂).2
  obtain ⟨rfl, h₄⟩ := padded_append_inj (by decide) (by omega) (by omega) (List.cons.inj h₃).2
  obtain ⟨rfl, h₅⟩ := padded_append_inj (by decide) (by omega) (by omega) (List.cons.inj h₄).2
  obtain ⟨rfl, h₆⟩ := padded_append_inj (by decide) (by omega) (by omega) (List.cons.inj h₅).2
  have hmicro : us = us' := by
    by_cases hus : us = 0
    · by_cases hus' : us' = 0
      · rw [hus, hus']
      · rw [if_pos hus, if_neg hus'] at h₆
        exact absurd (List.cons.inj h₆).1 (by decide)
    · by_cases hus' : us' = 0
      · rw [if_neg hus, if_pos hus'] at h₆
        exact absurd (List.cons.inj h₆).1 (by decide)
      · rw [if_neg hus, if_neg hus'] at h₆
        exact (padded_append_inj (by decide) (by omega) (by omega) (List.cons.inj h₆).2).1
  cases hmicro
  rfl

theorem stopReason_injective {a b : StopReason} (h : a.value = b.value) : a = b := by
  revert h
  cases a <;> cases b <;> decide

theorem RunManifest.canonicalBytes_injective : Function.Injective RunManifest.canonicalBytes := by
  intro e o h
  have hsorted : (Value.obj e.fields).sorted = (Value.obj o.fields).sorted :=
    dumps_injective (utf8_injective h)
  have hget (field : Field) : (e.get field).sorted = (o.get field).sorted := by
    have hlookup := lookup_written e.fields_nodup field.name
    rw [Value.sorted, Value.sorted, Value.obj.injEq] at hsorted
    have hwritten : written e.fields = written o.fields := hsorted
    rw [hwritten, lookup_written o.fields_nodup, e.lookup_fields, o.lookup_fields,
      Option.map_some, Option.map_some, Option.some.injEq] at hlookup
    exact hlookup.symm
  have hstr {s t : List Char} (hst : (Value.str s).sorted = (Value.str t).sorted) : s = t := by
    simpa only [Value.sorted, Value.str.injEq] using hst
  have hagree : AgreeElsewhere e o := agreeElsewhere_iff.mpr fun field _ _ => hget field
  have hrun := uuidText_injective (hstr (hget .runId))
  have hstarted := jsonTimestamp_injective (hstr (hget .startedAt))
  have hfinished := jsonTimestamp_injective (hstr (hget .finishedAt))
  have hstop := stopReason_injective (hstr (hget .stopReason))
  have hparameters : e.parameters = o.parameters := by
    refine Document.value_injective ?_
    have hvalue : e.parameters.value.sorted = o.parameters.value.sorted := hget .parameters
    rwa [document_sorted, document_sorted] at hvalue
  rw [AgreeElsewhere, ← hrun, ← hstarted, ← hfinished, ← hstop, ← hparameters] at hagree
  exact hagree

/-! ## The round trip -/

/-- **Manifests round trip.** What finalization writes is read as the manifest it wrote,
and no other manifest has its bytes. -/
theorem manifest_round_trip (p : Pydantic) (hash : List Char → Sha256) {m : RunManifest}
    (h : m.Storable p hash) :
    (∃ parsed, RunManifest.modelValidateJson p hash m.canonicalBytes = some parsed ∧
      parsed = m ∧ parsed.canonicalBytes = m.canonicalBytes) ∧
    (∀ runId : Option UuidBits, (∀ id ∈ runId, id = m.runId) →
      loadManifest p hash (m.artifact hash) runId m.canonicalBytes = .ok m) ∧
    ∀ m' : RunManifest, m'.canonicalBytes = m.canonicalBytes → m' = m := by
  have hread := RunManifest.modelValidateJson_canonicalBytes h
  refine ⟨⟨m, hread, rfl, rfl⟩, fun runId hrun => ?_, fun m' hbytes =>
    RunManifest.canonicalBytes_injective hbytes⟩
  have hscope : ¬(runId.isSome = true ∧ some m.runId ≠ runId) := by
    rintro ⟨hsome, hne⟩
    obtain ⟨id, rfl⟩ := Option.isSome_iff_exists.mp hsome
    exact hne (congrArg some (hrun id rfl).symm)
  rw [loadManifest, hread]
  simp only [RunManifest.artifact, ne_eq, not_true_eq_false, if_false, false_or, hscope]

/-! ### A manifest with a float -/

/-- The number in some digits, and the text after the character that ends them. -/
def splitNumber (width : Nat) (text : List Char) : Nat × List Char :=
  (Nat.ofDigitChars 10 (text.take width) 0, text.drop (width + 1))

theorem splitNumber_padded {width n : Nat} (hwidth : 0 < width) (h : n < 10 ^ width) (c : Char)
    (rest : List Char) : splitNumber width (padded width n ++ c :: rest) = (n, rest) := by
  have hlength := padded_length hwidth h
  have hdrop : (padded width n ++ c :: rest).drop (width + 1) = rest := by
    rw [← List.drop_drop, List.drop_left' hlength, List.drop_one, List.tail_cons]
  rw [splitNumber, List.take_left' hlength, padded_value, hdrop]

/-- An ISO 8601 timestamp in UTC. -/
def isoDatetime (text : List Char) : Option (Option UtcTime) :=
  let (year, text) := splitNumber 4 text
  let (month, text) := splitNumber 2 text
  let (day, text) := splitNumber 2 text
  let (hour, text) := splitNumber 2 text
  let (minute, text) := splitNumber 2 text
  let (second, text) := splitNumber 2 text
  let microsecond := if text = [] then 0 else (splitNumber 6 text).1
  if date : 1 ≤ year ∧ year ≤ 9999 ∧ 1 ≤ month ∧ month ≤ 12 ∧ 1 ≤ day ∧ day ≤ 31 then
    if clock : hour ≤ 23 ∧ minute ≤ 59 ∧ second ≤ 59 ∧ microsecond ≤ 999999 then
      some (some ⟨year, month, day, hour, minute, second, microsecond, date, clock⟩)
    else none
  else none

theorem isoDatetime_jsonTimestamp (t : UtcTime) :
    isoDatetime (jsonTimestamp t) = some (some t) := by
  obtain ⟨year, month, day, hour, minute, second, microsecond, date, clock⟩ := t
  have hyear := fun rest => splitNumber_padded (by decide) (by omega : year < 10 ^ 4) '-' rest
  have hmonth := fun rest => splitNumber_padded (by decide) (by omega : month < 10 ^ 2) '-' rest
  have hday := fun rest => splitNumber_padded (by decide) (by omega : day < 10 ^ 2) 'T' rest
  have hhour := fun rest => splitNumber_padded (by decide) (by omega : hour < 10 ^ 2) ':' rest
  have hminute := fun rest => splitNumber_padded (by decide) (by omega : minute < 10 ^ 2) ':' rest
  have hsecond := fun c rest => splitNumber_padded (by decide) (by omega : second < 10 ^ 2) c rest
  have hmicro := splitNumber_padded (by decide) (by omega : microsecond < 10 ^ 6) 'Z' []
  by_cases hzero : microsecond = 0
  · subst hzero
    simp only [isoDatetime, jsonTimestamp, hyear, hmonth, hday, hhour, hminute, hsecond, if_true,
      List.nil_append, dif_pos date, dif_pos clock]
  · simp only [isoDatetime, jsonTimestamp, hyear, hmonth, hday, hhour, hminute, hsecond,
      if_neg hzero, List.cons_append, hmicro, List.append_eq_nil_iff, List.cons_ne_self, and_false, if_false,
      dif_pos date, dif_pos clock]

def halfChars : List Char := ['0', '.', '5']

theorem halfChars_numeric :
    ∀ c ∈ halfChars, c.isDigit ∨ c = '-' ∨ c = '+' ∨ c = '.' ∨ c = 'e' := by
  intro c hc
  simp only [halfChars, List.mem_cons, List.not_mem_nil, or_false] at hc
  obtain rfl | rfl | rfl := hc <;> decide

theorem halfChars_leading : ∃ c rest, halfChars = c :: rest ∧ (c.isDigit ∨ c = '-') :=
  ⟨'0', ['.', '5'], rfl, .inl rfl⟩

/-- `repr(0.5)`. -/
def halfText : FloatText := ⟨halfChars, halfChars_numeric, .inl (by decide), halfChars_leading⟩

def isoPydantic : Pydantic where
  float chars := if chars = halfChars then some halfText else none
  uuid text :=
    if text.length = 36 then some (BitVec.ofNat 128 (unicodeValue (text.filter (· != '-'))))
    else none
  datetime := isoDatetime
  uuid_text id := by
    have hlt : id.toNat < 16 ^ 32 := id.isLt
    have hlength : (uuidText id).length = 36 := by
      simp [uuidText, hexDigits_length]
    rw [if_pos hlength, uuidText_digits, unicodeValue_hexDigits, Nat.mod_eq_of_lt hlt,
      BitVec.ofNat_toNat, BitVec.setWidth_eq]
  datetime_utc t _ := isoDatetime_jsonTimestamp t

def halfParameters : Document := sampleParameters (.float halfText) trivial

theorem halfManifest_storable (hash : List Char → Sha256) :
    (sampleManifest halfParameters).Storable isoPydantic hash where
  valid := sampleManifest_valid hash halfParameters
    (normalizes hash halfParameters rfl (by decide) (by decide)) rfl
  floats := ⟨rfl, trivial⟩
  seed := rfl
  startedAt := by decide
  finishedAt := by decide

theorem manifest_round_trip_half :
    RunManifest.modelValidateJson isoPydantic (fun _ => 0)
      (sampleManifest halfParameters).canonicalBytes = some (sampleManifest halfParameters) := by
  obtain ⟨⟨parsed, hread, hsame, -⟩, -⟩ :=
    manifest_round_trip isoPydantic (fun _ => 0) (halfManifest_storable fun _ => 0)
  rw [hread, hsame]

end CorpusKit.Manifests
