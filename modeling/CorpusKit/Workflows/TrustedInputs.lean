import CorpusKit.Domain.Artifacts
import CorpusKit.Domain.AuditHash
import CorpusKit.Domain.Jobs
import CorpusKit.Library.Json
import CorpusKit.Library.Machine
import CorpusKit.Services.Exports

/-! # Trusted inputs of one child process

The parent verifies the bytes a run has selected and writes them into a directory
named by a random token, together with a marker that holds the envelope. A child
that presents the same envelope renames the marker and with it claims the
directory. The parent removes the directory when it is done, file by file, and
until then anybody may have altered the files in it. -/

namespace CorpusKit.TrustedInputs

open Json (Value)
open Program (Prog)
open Transaction Interleaving

abbrev Bytes := List UInt8

/-- `hexdigest` and other strings. -/
abbrev Text := List Char

abbrev Token := Text

/-- What is raised, by the classes that are told apart. -/
inductive Raised
  | run (code : String) (retryable : Bool)
  | os
  | value
  deriving DecidableEq, Repr

/-! ## The envelope -/

structure TrustedPromptInput where
  artifactId : UuidBits
  contentSha256 : Text
  promptCount : Nat
  deriving DecidableEq

structure TrustedPeftAdapterInput where
  artifactId : UuidBits
  artifactSha256 : Text
  checkpointSha256 : Text
  materializedManifestSha256 : Text
  deriving DecidableEq

structure TrustedRunInputs where
  token : Token
  runBindingSha256 : Text
  specSha256 : Text
  runKind : RunKind
  prompt : Option TrustedPromptInput
  peftAdapter : Option TrustedPeftAdapterInput
  deriving DecidableEq

/-- `_canonical`. -/
def canonical (value : Value) : Bytes := encodeUtf8 (Json.dumps value)

def orNull {α : Type} (dump : α → Value) : Option α → Value
  | none => .null
  | some a => dump a

/-! The fields of every dump stand in the order of their keys. -/

def TrustedPromptInput.modelDump (p : TrustedPromptInput) : Value :=
  .obj
    [("artifact_id".toList, .str (uuidText p.artifactId)),
     ("content_sha256".toList, .str p.contentSha256),
     ("prompt_count".toList, .int p.promptCount)]

def TrustedPeftAdapterInput.modelDump (p : TrustedPeftAdapterInput) : Value :=
  .obj
    [("artifact_id".toList, .str (uuidText p.artifactId)),
     ("artifact_sha256".toList, .str p.artifactSha256),
     ("checkpoint_sha256".toList, .str p.checkpointSha256),
     ("materialized_manifest_sha256".toList, .str p.materializedManifestSha256)]

def TrustedRunInputs.modelDump (inputs : TrustedRunInputs) : Value :=
  .obj
    [("peft_adapter".toList, orNull TrustedPeftAdapterInput.modelDump inputs.peftAdapter),
     ("prompt".toList, orNull TrustedPromptInput.modelDump inputs.prompt),
     ("run_binding_sha256".toList, .str inputs.runBindingSha256),
     ("run_kind".toList, .str inputs.runKind.value.toList),
     ("schema_id".toList, .str "corpuskit.trusted-run-inputs.v1".toList),
     ("spec_sha256".toList, .str inputs.specSha256),
     ("token".toList, .str inputs.token)]

/-- What the parent writes into the marker. -/
def TrustedRunInputs.canonicalBytes (inputs : TrustedRunInputs) : Bytes :=
  canonical inputs.modelDump

/-- `exact_payload_for_kind`. -/
def TrustedRunInputs.exactPayloadForKind (inputs : TrustedRunInputs) : Bool :=
  match inputs.runKind with
  | .trainPhonRl => inputs.prompt.isSome && inputs.peftAdapter.isNone
  | .generateLocal => inputs.peftAdapter.isSome && inputs.prompt.isNone
  | _ => false

def isLowerHex (c : Char) : Bool := ('0' ≤ c && c ≤ '9') || ('a' ≤ c && c ≤ 'f')

/-- `_TOKEN.fullmatch`; a digest has the same pattern. -/
def isToken (token : Text) : Bool := token.length == 64 && token.all isLowerHex

def TrustedPromptInput.valid (prompt : TrustedPromptInput) : Bool :=
  isToken prompt.contentSha256 && 1 ≤ prompt.promptCount && prompt.promptCount ≤ 10000

def TrustedPeftAdapterInput.valid (adapter : TrustedPeftAdapterInput) : Bool :=
  isToken adapter.artifactSha256 && isToken adapter.checkpointSha256 &&
    isToken adapter.materializedManifestSha256

/-- What the models check of an envelope and its parts. -/
def TrustedRunInputs.valid (inputs : TrustedRunInputs) : Bool :=
  isToken inputs.token && isToken inputs.runBindingSha256 && isToken inputs.specSha256 &&
    inputs.prompt.all TrustedPromptInput.valid &&
    inputs.peftAdapter.all TrustedPeftAdapterInput.valid && inputs.exactPayloadForKind

/-! ## Prompts, checkpoints and their manifest -/

def maxRlPromptArtifactBytes : Nat := 8 * 1024 * 1024

def maxRlResultBytes : Nat := 100 * 1024 * 1024

/-- The canonical bytes of a `PhonRlPromptArtifact`. -/
def promptBytes (prompts : List Text) : Bytes :=
  canonical (.obj
    [("prompts".toList, .arr (prompts.map .str)),
     ("schema_id".toList, .str "corpuskit.phon-rl-prompt-artifact.v1".toList)])

structure Compatibility where
  baseModelId : Text
  baseModelRevision : Text
  baseModelSnapshotSha256 : Text
  tokenizerId : Text
  tokenizerRevision : Text
  tokenizerSnapshotSha256 : Text
  corpusgenVersion : Text
  torchVersion : Text
  transformersVersion : Text
  peftVersion : Option Text
  peftAdapter : Bool
  deriving DecidableEq

def Compatibility.modelDump (c : Compatibility) : Value :=
  .obj
    [("base_model_id".toList, .str c.baseModelId),
     ("base_model_revision".toList, .str c.baseModelRevision),
     ("base_model_snapshot_sha256".toList, .str c.baseModelSnapshotSha256),
     ("corpusgen_version".toList, .str c.corpusgenVersion),
     ("peft_adapter".toList, .bool c.peftAdapter),
     ("peft_version".toList, orNull .str c.peftVersion),
     ("schema_id".toList, .str "corpuskit.phon-rl-checkpoint-compatibility.v1".toList),
     ("tokenizer_id".toList, .str c.tokenizerId),
     ("tokenizer_revision".toList, .str c.tokenizerRevision),
     ("tokenizer_snapshot_sha256".toList, .str c.tokenizerSnapshotSha256),
     ("torch_version".toList, .str c.torchVersion),
     ("transformers_version".toList, .str c.transformersVersion)]

structure MaterializedCheckpointFile where
  path : Text
  sizeBytes : Nat
  sha256 : Text
  deriving DecidableEq

def MaterializedCheckpointFile.modelDump (file : MaterializedCheckpointFile) : Value :=
  .obj
    [("path".toList, .str file.path),
     ("sha256".toList, .str file.sha256),
     ("size_bytes".toList, .int file.sizeBytes)]

structure MaterializedPeftManifest where
  checkpointSha256 : Text
  compatibility : Compatibility
  files : List MaterializedCheckpointFile
  deriving DecidableEq

def MaterializedPeftManifest.canonicalBytes (manifest : MaterializedPeftManifest) : Bytes :=
  canonical (.obj
    [("checkpoint_sha256".toList, .str manifest.checkpointSha256),
     ("compatibility".toList, manifest.compatibility.modelDump),
     ("files".toList, .arr (manifest.files.map MaterializedCheckpointFile.modelDump)),
     ("schema_id".toList, .str "corpuskit.materialized-peft-adapter.v1".toList)])

def adapterConfig : Text := "adapter_config.json".toList

def adapterModel : Text := "adapter_model.safetensors".toList

/-- The checks of the manifest's files that two files with these names can fail. -/
def safeFiles (files : List MaterializedCheckpointFile) : Bool :=
  files.map MaterializedCheckpointFile.path == [adapterConfig, adapterModel] &&
    files.all fun file => 1 ≤ file.sizeBytes && file.sizeBytes ≤ maxRlResultBytes

/-- A file of a checkpoint, whose content the model has compared with its digest. -/
structure CheckpointFile (sha256 : Bytes → Text) where
  path : Text
  sizeBytes : Nat
  digest : Text
  /-- `content_base64`, decoded. -/
  content : Bytes
  size : content.length = sizeBytes
  integrity : sha256 content = digest

structure TrainingResult (sha256 : Bytes → Text) where
  checkpointSha256 : Text
  compatibility : Compatibility
  files : List (CheckpointFile sha256)
  peftInferenceReady : Bool

/-- The files that make an adapter, by path. -/
def TrainingResult.selectedFiles {sha256 : Bytes → Text} (result : TrainingResult sha256) :
    List (CheckpointFile sha256) :=
  (result.files.filter fun file => [adapterConfig, adapterModel].contains file.path).insertionSort
    fun a b => a.path ≤ b.path

/-- The manifest that the parent writes for a checkpoint. -/
def TrainingResult.manifest {sha256 : Bytes → Text} (result : TrainingResult sha256) :
    MaterializedPeftManifest where
  checkpointSha256 := result.checkpointSha256
  compatibility := result.compatibility
  files := result.selectedFiles.map fun file => ⟨file.path, file.sizeBytes, file.digest⟩

/-! ## The parent -/

structure PromptSource where
  artifactId : UuidBits
  contentSha256 : Text
  promptCount : Nat
  deriving DecidableEq

structure ModelPin where
  model : Text
  revision : Text
  deriving DecidableEq

structure AdapterSelection where
  artifactId : UuidBits
  artifactSha256 : Text
  checkpointSha256 : Text
  deriving DecidableEq

structure LocalRequest where
  pin : ModelPin
  phonRlAdapter : Option AdapterSelection

structure LocalModelPolicy where
  pin : ModelPin
  artifactSha256 : Text
  allowPhonRlAdapters : Bool

/-- The hash, and the models of the run's spec and of the stored bytes; a model
that raises a `ValidationError` has no value. -/
structure Platform where
  sha256 : Bytes → Text
  Spec : Type
  /-- The static prompt source of a `PhonRlTrainingRequest`, if it has one. -/
  trainingRequest : Spec → Option (Option PromptSource)
  localRequest : Spec → Option LocalRequest
  promptArtifact : Bytes → Option (List Text)
  trainingResult : Bytes → Option (TrainingResult sha256)
  peftManifest : Bytes → Option MaterializedPeftManifest
  /-- `importlib.metadata.version`. -/
  version : String → Option Text

structure ExecutionRecord (Spec : Type) where
  organizationId : UuidBits
  projectId : UuidBits
  runId : UuidBits
  kind : RunKind
  spec : Spec
  specSha256 : Text

structure ArtifactRow where
  id : UuidBits
  organizationId : UuidBits
  projectId : UuidBits
  runId : Option UuidBits
  kind : ArtifactKind
  state : ArtifactState
  sha256 : Text
  sizeBytes : Nat
  mediaType : Text
  storageKey : Text

structure RunRow where
  id : UuidBits
  organizationId : UuidBits
  projectId : UuidBits
  kind : RunKind
  succeeded : Bool

/-- What the object store delivers: a descriptor and chunks, until it breaks off. -/
structure ObjectStream where
  sha256 : Text
  sizeBytes : Nat
  mediaType : Text
  chunks : List Bytes
  broken : Bool

/-- What the parent sees of the world while it prepares a run. -/
structure ParentView where
  artifacts : List ArtifactRow
  runs : List RunRow
  objects : Text → Option ObjectStream
  localPolicies : List LocalModelPolicy
  /-- The tokens it draws, and the names that exist already. -/
  draws : List Token
  taken : Token → Bool

def notAuthorized : Raised := .run "trusted_input_not_authorized" false

def integrity : Raised := .run "trusted_input_integrity" false

section Parent

variable {p : Platform} (view : ParentView) (record : ExecutionRecord p.Spec)

/-- `_authorized_artifact`. -/
def authorizedArtifact (artifactId : UuidBits) (expectedKind : ArtifactKind) (expectedSha256 : Text)
    (sourceRunKind : Option RunKind) : Except Raised ArtifactRow :=
  match view.artifacts.find? fun a =>
    a.id == artifactId && a.organizationId == record.organizationId &&
      a.projectId == record.projectId && a.kind == expectedKind && a.state == .active &&
      a.sha256 == expectedSha256 with
  | none => .error notAuthorized
  | some artifact =>
    match sourceRunKind, artifact.runId with
    | none, _ => .ok artifact
    | some _, none => .error notAuthorized
    | some kind, some runId =>
      if view.runs.any fun run =>
        run.id == runId && run.organizationId == record.organizationId &&
          run.projectId == record.projectId && run.kind == kind && run.succeeded then .ok artifact
      else .error notAuthorized

/-- The chunks of a stream, as long as they stay within the maximum. -/
def readChunks (maximumBytes : Nat) (content : Bytes) : List Bytes → Except Raised Bytes
  | [] => .ok content
  | chunk :: chunks =>
    if maximumBytes < (content ++ chunk).length then .error integrity
    else readChunks maximumBytes (content ++ chunk) chunks

/-- `_read`. -/
def readArtifact (sha256 : Bytes → Text) (artifact : ArtifactRow) (maximumBytes : Nat) :
    Except Raised Bytes :=
  match view.objects artifact.storageKey with
  | none => .error (.run "trusted_input_store_unavailable" true)
  | some stream =>
    if stream.sha256 ≠ artifact.sha256 ∨ stream.sizeBytes ≠ artifact.sizeBytes ∨
        stream.mediaType ≠ artifact.mediaType ∨ maximumBytes < artifact.sizeBytes then
      .error integrity
    else do
      let content ← readChunks maximumBytes [] stream.chunks
      if stream.broken then .error (.run "trusted_input_store_unavailable" true)
      else if content.length ≠ artifact.sizeBytes ∨ sha256 content ≠ artifact.sha256 then
        .error integrity
      else .ok content

/-- `_new_directory`: the first of eight tokens whose name is free. -/
def newDirectory : Except Raised Token :=
  match (view.draws.take 8).find? fun token => !view.taken token with
  | some token => .ok token
  | none => .error (.run "trusted_input_materialization" true)

/-- `_run_binding`. -/
def runBinding : Text :=
  p.sha256 (canonical (.obj
    [("kind".toList, .str record.kind.value.toList),
     ("organization_id".toList, .str (uuidText record.organizationId)),
     ("project_id".toList, .str (uuidText record.projectId)),
     ("run_id".toList, .str (uuidText record.runId)),
     ("spec_sha256".toList, .str record.specSha256)]))

/-- What the parent writes besides the marker. -/
inductive Payload
  | prompts (content : Bytes)
  | adapter (manifest : Bytes) (files : List (Text × Bytes))

/-- The envelope, or a `ValidationError`. -/
def envelope (inputs : TrustedRunInputs) : Except Raised TrustedRunInputs :=
  if inputs.valid then .ok inputs else .error .value

/-- `_materialize_prompts`. -/
def materializePrompts (source : PromptSource) : Except Raised (TrustedRunInputs × Payload) := do
  let artifact ←
    authorizedArtifact view record source.artifactId .promptSet source.contentSha256 none
  let content ← readArtifact view p.sha256 artifact maxRlPromptArtifactBytes
  match p.promptArtifact content with
  | none => .error (.run "trusted_prompt_contract" false)
  | some prompts =>
    if promptBytes prompts ≠ content ∨ p.sha256 (promptBytes prompts) ≠ source.contentSha256 ∨
        prompts.length ≠ source.promptCount then
      .error (.run "trusted_prompt_integrity" false)
    else do
      let token ← newDirectory view
      let inputs ← envelope
        { token, runBindingSha256 := runBinding record, specSha256 := record.specSha256
          runKind := record.kind
          prompt := some ⟨source.artifactId, source.contentSha256, source.promptCount⟩
          peftAdapter := none }
      pure (inputs, .prompts content)

/-- The versions of the installed distributions, as far as they are compared. -/
def sameVersions : List (String × Option Text) → Except Raised Bool
  | [] => .ok true
  | (distribution, expected) :: rest =>
    match p.version distribution with
    | none => .error (.run "trusted_adapter_dependency" false)
    | some installed => if some installed = expected then sameVersions rest else .ok false

/-- `_materialize_adapter`. -/
def materializeAdapter (request : LocalRequest) (selection : AdapterSelection) :
    Except Raised (TrustedRunInputs × Payload) :=
  match view.localPolicies.find? fun policy =>
    policy.pin == request.pin && policy.allowPhonRlAdapters with
  | none => .error (.run "trusted_adapter_policy" false)
  | some policy => do
    let artifact ← authorizedArtifact view record selection.artifactId .runResult
      selection.artifactSha256 (some .trainPhonRl)
    let content ← readArtifact view p.sha256 artifact maxRlResultBytes
    match p.trainingResult content with
    | none => .error (.run "trusted_adapter_contract" false)
    | some result =>
      let compatibility := result.compatibility
      if result.checkpointSha256 ≠ selection.checkpointSha256 ∨ compatibility.peftAdapter = false ∨
          result.peftInferenceReady = false ∨ compatibility.baseModelId ≠ policy.pin.model ∨
          compatibility.baseModelRevision ≠ policy.pin.revision ∨
          compatibility.baseModelSnapshotSha256 ≠ policy.artifactSha256 ∨
          compatibility.tokenizerId ≠ policy.pin.model ∨
          compatibility.tokenizerRevision ≠ policy.pin.revision ∨
          compatibility.tokenizerSnapshotSha256 ≠ policy.artifactSha256 then
        .error (.run "trusted_adapter_compatibility" false)
      else do
        let same ← sameVersions (p := p)
          [("corpusgen", some compatibility.corpusgenVersion),
            ("torch", some compatibility.torchVersion),
            ("transformers", some compatibility.transformersVersion),
            ("peft", compatibility.peftVersion)]
        if !same then .error (.run "trusted_adapter_compatibility" false)
        else
          if result.selectedFiles.length ≠ 2 then .error (.run "trusted_adapter_layout" false)
          else do
            let token ← newDirectory view
            if !safeFiles result.manifest.files then .error .value
            else do
              let inputs ← envelope
                { token, runBindingSha256 := runBinding record, specSha256 := record.specSha256
                  runKind := record.kind
                  prompt := none
                  peftAdapter := some
                    ⟨selection.artifactId, selection.artifactSha256, selection.checkpointSha256,
                      p.sha256 result.manifest.canonicalBytes⟩ }
              pure (inputs, .adapter result.manifest.canonicalBytes
                (result.selectedFiles.map fun file => (file.path, file.content)))

/-- `materialize`, up to what it yields; a `ValueError` becomes an invalid spec. -/
def materialize : Except Raised (Option (TrustedRunInputs × Payload)) :=
  let prepared : Except Raised (Option (TrustedRunInputs × Payload)) :=
    match record.kind with
    | .trainPhonRl =>
      match p.trainingRequest record.spec with
      | none => .error .value
      | some none => .ok none
      | some (some source) => (materializePrompts view record source).map some
    | .generateLocal =>
      match p.localRequest record.spec with
      | none => .error .value
      | some request =>
        match request.phonRlAdapter with
        | none => .ok none
        | some selection => (materializeAdapter view record request selection).map some
    | _ => .ok none
  match prepared with
  | .error .value => .error (.run "invalid_run_spec" false)
  | prepared => prepared

end Parent

/-- Inputs that the parent has materialized for a run. -/
structure Materialization (p : Platform) where
  view : ParentView
  record : ExecutionRecord p.Spec
  inputs : TrustedRunInputs
  payload : Payload
  made : materialize view record = .ok (some (inputs, payload))

/-! ## The directories -/

/-- What a path inside a directory answers: whether it resolves within its folder,
what it is and what it holds. -/
structure Entry where
  inside : Bool
  isFile : Bool
  isFolder : Bool
  size : Nat
  /-- None where reading raises. -/
  content : Option Bytes

def Entry.ofFile (content : Bytes) : Entry := ⟨true, true, false, content.length, some content⟩

def Entry.ofFolder : Entry := ⟨true, false, true, 0, none⟩

inductive Folder
  | root
  | adapter
  deriving DecidableEq, Repr

structure Directory where
  ready : Option Bytes
  claimed : Option Bytes
  entries : Folder → Text → Option Entry

def promptFile : Text := "prompts.json".toList

def adapterDirectory : Text := "adapter".toList

def adapterManifest : Text := "adapter-manifest.json".toList

def Payload.entries : Payload → Folder → Text → Option Entry
  | .prompts content, .root, name => if name = promptFile then some (.ofFile content) else none
  | .prompts _, .adapter, _ => none
  | .adapter manifest _, .root, name =>
    if name = adapterManifest then some (.ofFile manifest)
    else if name = adapterDirectory then some .ofFolder
    else none
  | .adapter _ files, .adapter, name => (files.lookup name).map .ofFile

/-- The directory when `materialize` yields. -/
def Materialization.directory {p : Platform} (m : Materialization p) : Directory where
  ready := some m.inputs.canonicalBytes
  claimed := none
  entries := m.payload.entries

structure World where
  directories : Token → Option Directory
  /-- The parent has left the context, and its removal is under way. -/
  removing : Token → Bool

def World.setDirectory (w : World) (token : Token) (directory : Option Directory) : World :=
  { w with directories := fun t => if t = token then directory else w.directories t }

def World.entry (w : World) (token : Token) (folder : Folder) (name : Text) : Option Entry :=
  (w.directories token).bind fun directory => directory.entries folder name

/-! ## The calls of a child -/

/-- One call into the file system; each raises an `OSError` where a path is missing. -/
inductive Op : Type → Type
  /-- `(root / token).resolve(strict=True)`. -/
  | resolveDirectory (token : Token) : Op Unit
  | readReady (token : Token) : Op Bytes
  /-- `os.replace(ready, claimed)`. -/
  | replaceReady (token : Token) : Op Unit
  /-- `path.resolve(strict=True)`: whether its parent is the folder. -/
  | resolve (token : Token) (folder : Folder) (name : Text) : Op Bool
  | isFile (token : Token) (folder : Folder) (name : Text) : Op Bool
  | isFolder (token : Token) (folder : Folder) (name : Text) : Op Bool
  | size (token : Token) (folder : Folder) (name : Text) : Op Nat
  | read (token : Token) (folder : Folder) (name : Text) : Op Bytes

/-- What is there, or an `OSError`. -/
def present {α : Type} (look : World → Option α) : Tx World Raised α := do
  let w ← get
  found (look w) .os

def Op.exec : {β : Type} → Op β → Tx World Raised β
  | _, .resolveDirectory token => present fun w => (w.directories token).map fun _ => ()
  | _, .readReady token => present fun w => (w.directories token).bind Directory.ready
  | _, .replaceReady token => do
    let w ← get
    let directory ← found (w.directories token) .os
    let raw ← found directory.ready .os
    set (w.setDirectory token (some { directory with ready := none, claimed := some raw }))
  | _, .resolve token folder name =>
    present fun w => (w.entry token folder name).map fun entry =>
      entry.inside && !name.contains '/'
  | _, .isFile token folder name =>
    present fun w => some ((w.entry token folder name).any Entry.isFile)
  | _, .isFolder token folder name =>
    present fun w => some ((w.entry token folder name).any Entry.isFolder)
  | _, .size token folder name => present fun w => (w.entry token folder name).map Entry.size
  | _, .read token folder name => present fun w => (w.entry token folder name).bind Entry.content

/-- `except (OSError, ValueError): raise RunExecutionError(code, retryable=False)`. -/
def refused {α : Type} (code : String) : Raised → Prog Op Raised α
  | .run code retryable => .raise (.run code retryable)
  | _ => .raise (.run code false)

def claimError : Raised := .run "trusted_input_claim" false

/-- `claim_trusted_input`; the directory is known by its token. -/
def claimTrustedInput (inputs : TrustedRunInputs) (expectedKind : RunKind) :
    Prog Op Raised Token := do
  Prog.require (inputs.runKind = expectedKind ∧ isToken inputs.token = true) claimError
  let attempt : Prog Op Raised Token := do
    Prog.perform (.resolveDirectory inputs.token)
    let raw ← Prog.perform (.readReady inputs.token)
    Prog.require (raw = inputs.canonicalBytes) claimError
    Prog.perform (.replaceReady inputs.token)
    pure inputs.token
  attempt.handle (refused "trusted_input_claim")

/-- `read_materialized_prompts`. -/
def readMaterializedPrompts (p : Platform) (directory : Token) (trusted : TrustedPromptInput) :
    Prog Op Raised (List Text) :=
  let attempt : Prog Op Raised (List Text) := do
    let inside ← Prog.perform (.resolve directory .root promptFile)
    Prog.perform (.resolveDirectory directory)
    Prog.require (inside = true) .value
    let size ← Prog.perform (.size directory .root promptFile)
    Prog.require (size ≤ maxRlPromptArtifactBytes) .value
    let content ← Prog.perform (.read directory .root promptFile)
    Prog.require (p.sha256 content = trusted.contentSha256) .value
    let prompts ← Prog.found (p.promptArtifact content) .value
    Prog.require (promptBytes prompts = content ∧ prompts.length = trusted.promptCount) .value
    pure prompts
  attempt.handle (refused "trusted_prompt_integrity")

/-- The loop over the files of a manifest. -/
def checkFiles (p : Platform) (directory : Token) :
    List MaterializedCheckpointFile → Prog Op Raised Unit
  | [] => pure ()
  | item :: items => do
    let inside ← Prog.perform (.resolve directory .adapter item.path)
    Prog.require (inside = true) .value
    let isFile ← Prog.perform (.isFile directory .adapter item.path)
    Prog.require (isFile = true) .value
    let size ← Prog.perform (.size directory .adapter item.path)
    Prog.require (size = item.sizeBytes) .value
    let content ← Prog.perform (.read directory .adapter item.path)
    Prog.require (p.sha256 content = item.sha256) .value
    checkFiles p directory items

/-- `read_materialized_peft_manifest`; the adapter's folder is the directory's. -/
def readMaterializedPeftManifest (p : Platform) (directory : Token)
    (trusted : TrustedPeftAdapterInput) : Prog Op Raised MaterializedPeftManifest :=
  let attempt : Prog Op Raised MaterializedPeftManifest := do
    Prog.perform (.resolveDirectory directory)
    let manifestInside ← Prog.perform (.resolve directory .root adapterManifest)
    let adapterInside ← Prog.perform (.resolve directory .root adapterDirectory)
    Prog.require (manifestInside = true ∧ adapterInside = true) .value
    let isFolder ← Prog.perform (.isFolder directory .root adapterDirectory)
    Prog.require (isFolder = true) .value
    let content ← Prog.perform (.read directory .root adapterManifest)
    Prog.require (p.sha256 content = trusted.materializedManifestSha256) .value
    let manifest ← Prog.found (p.peftManifest content) .value
    Prog.require (manifest.canonicalBytes = content ∧
      manifest.checkpointSha256 = trusted.checkpointSha256) .value
    checkFiles p directory manifest.files
    pure manifest
  attempt.handle (refused "trusted_adapter_integrity")

/-! ## Children, the parent's cleanup and alterations -/

inductive Call
  | claim (inputs : TrustedRunInputs) (expectedKind : RunKind)
  | readPrompts (directory : Token) (trusted : TrustedPromptInput)
  | readAdapter (directory : Token) (trusted : TrustedPeftAdapterInput)

def Call.Value : Call → Type
  | .claim _ _ => Token
  | .readPrompts _ _ => List Text
  | .readAdapter _ _ => MaterializedPeftManifest

def Call.prog (p : Platform) : (call : Call) → Prog Op Raised call.Value
  | .claim inputs expectedKind => claimTrustedInput inputs expectedKind
  | .readPrompts directory trusted => readMaterializedPrompts p directory trusted
  | .readAdapter directory trusted => readMaterializedPeftManifest p directory trusted

inductive Tick
  /-- The parent leaves the context of a directory. -/
  | leave (token : Token)
  /-- One deletion of `_remove_materialization`. -/
  | unlinkReady (token : Token)
  | unlinkClaimed (token : Token)
  | unlinkEntry (token : Token) (folder : Folder) (name : Text)
  | removeDirectory (token : Token)
  /-- Somebody alters a file. -/
  | alter (token : Token) (folder : Folder) (name : Text) (entry : Option Entry)

def World.change (w : World) (token : Token) (f : Directory → Option Directory) : World :=
  match w.directories token with
  | some directory => w.setDirectory token (f directory)
  | none => w

def Directory.setEntry (directory : Directory) (folder : Folder) (name : Text)
    (entry : Option Entry) : Directory :=
  { directory with
    entries := fun f n => if f = folder ∧ n = name then entry else directory.entries f n }

/-- The parent deletes only where it has left. -/
def Tick.apply : Tick → World → World
  | .leave token, w => { w with removing := fun t => t == token || w.removing t }
  | .unlinkReady token, w =>
    if w.removing token then w.change token fun d => some { d with ready := none } else w
  | .unlinkClaimed token, w =>
    if w.removing token then w.change token fun d => some { d with claimed := none } else w
  | .unlinkEntry token folder name, w =>
    if w.removing token then w.change token fun d => some (d.setEntry folder name none) else w
  | .removeDirectory token, w => if w.removing token then w.change token fun _ => none else w
  | .alter token folder name entry, w =>
    w.change token fun d => some (d.setEntry folder name entry)

/-- Any number of children on one root. -/
abbrev children (p : Platform) : Machine where
  World := World
  Error := Raised
  Op := Op
  exec := Op.exec
  Call := Call
  Value := Call.Value
  prog := Call.prog p
  Tick := Tick
  tick := Tick.apply

/-- What stands under one root: every directory has its own token. -/
structure Inputs (p : Platform) where
  all : List (Materialization p)
  distinct : (all.map fun m => m.inputs.token).Nodup

/-- The root with these inputs and no child yet. -/
def materialized {p : Platform} (inputs : Inputs p) : World where
  directories token :=
    (inputs.all.find? fun m => m.inputs.token == token).map Materialization.directory
  removing _ := false

end CorpusKit.TrustedInputs
