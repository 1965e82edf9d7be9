import CorpusKit.Library.Framing
import CorpusKit.Services.Exports

/-! # Digests of model snapshots

The digest a model is pinned by, over the paths and the bytes of its files, and the
checks a snapshot passes before it has one. A directory entry is what `pathlib` tells
of it; paths are lists of names. The walk over a snapshot passes by the directories that
it may not list. -/

namespace CorpusKit.Snapshots

abbrev Name := String

abbrev Path := List Name

/-- What an entry is, with links followed: a directory with whether it can be listed, a
file with where it resolves to. -/
inductive Target
  | directory (listable : Bool)
  | file (resolved : Path) (content : List UInt8)
  | other
  deriving DecidableEq

/-- An entry below the snapshot. -/
structure Item where
  path : Path
  isSymlink : Bool
  target : Target
  deriving DecidableEq

/-- `is_dir()`. -/
def Item.isDirectory (item : Item) : Bool :=
  match item.target with
  | .directory _ => true
  | _ => false

/-- A directory itself, not a link to one. -/
def Item.isPlainDirectory (item : Item) : Bool := item.isDirectory && !item.isSymlink

/-- A name of a directory entry. -/
def isName (name : Name) : Bool :=
  decide (name ≠ "") && decide (name ≠ ".") && decide (name ≠ "..") && !name.toList.contains '/'

/-- A resolved snapshot with all that is below it, in any order. Nothing is below the
links. -/
structure Snapshot where
  root : Path
  isDirectory : Bool
  listable : Bool
  items : List Item
  distinct : (items.map Item.path).Nodup
  named : ∀ item ∈ items, item.path ≠ [] ∧ ∀ name ∈ item.path, isName name = true
  nested : ∀ item ∈ items, item.path.dropLast ≠ [] →
    ∃ parent ∈ items, parent.path = item.path.dropLast ∧ parent.isPlainDirectory = true

/-- The directories a path goes through can all be listed. -/
def Snapshot.reaches (snapshot : Snapshot) (path : Path) : Bool :=
  snapshot.listable && snapshot.items.all fun item =>
    !item.path.isPrefixOf path || decide (item.path = path) ||
      decide (item.target = .directory true)

/-- `rglob("*")`: a directory that cannot be listed is passed over in silence. -/
def Snapshot.entries (snapshot : Snapshot) : List Item :=
  snapshot.items.filter fun item => snapshot.reaches item.path

/-- What the digest takes from the platform: the hash, JSON, and case folding. -/
structure Platform where
  sha256 : List UInt8 → Sha256
  loads : List UInt8 → Option Json.Value
  casefold : List Char → List Char

def maxSnapshotFiles : Nat := 10000
def maxCheckpointIndexBytes : Nat := 16 * 1024 * 1024

def unsafeWeightSuffixes : List (List Char) :=
  [".bin".toList, ".pkl".toList, ".pickle".toList, ".pt".toList, ".pth".toList]

def safetensors : List Char := ".safetensors".toList

/-- `Path.suffix` of a name: from its last dot, neither first nor last. -/
def suffix (name : List Char) : List Char :=
  let tail := name.reverse.takeWhile (· ≠ '.')
  if tail ≠ [] ∧ tail.length + 1 < name.length then '.' :: tail.reverse else []

def Item.name (item : Item) : List Char := (item.path.getLast?.getD "").toList

def Item.content (item : Item) : Option (List UInt8) :=
  match item.target with
  | .file _ content => some content
  | _ => none

/-! ## Checkpoint indexes -/

/-- The parts of a relative path, without empty ones and single dots. -/
def parts (text : List Char) : Path :=
  ((text.splitOnP fun c => c == '/').filter fun part =>
    !part.isEmpty && decide (part ≠ ['.'])).map String.ofList

/-- The dictionary an index maps weights in. -/
def weightMap (index : List (List Char × Json.Value)) : Option (List (List Char × Json.Value)) :=
  match index.reverse.lookup "weight_map".toList with
  | none => some index
  | some (.obj fields) => some fields
  | some _ => none

/-- A shard's name before it is looked up. -/
def isShardName (shard : List Char) : Bool :=
  !shard.isEmpty && !shard.contains (Char.ofNat 0) && !shard.contains '\\' && !shard.contains ':' &&
    !(shard.head? == some '/') && !(parts shard).contains ".." &&
    decide (suffix ((parts shard).getLast?.getD "").toList = safetensors)

def unavailable (operation : String) : Error := .engineUnavailable operation

def shardError : Error := unavailable "model_runtime.local.shard_index"

/-- One shard of an index: a path that does not resolve is an `OSError`. A path resolves
through directories that cannot be listed, too. -/
def checkShard (approvedRoot : Path) (items files : List Item) (index : Item) :
    Json.Value → Except Error Unit
  | .str shard =>
    if ¬isShardName shard then .error shardError
    else
      match items.find? fun item => item.path = index.path.dropLast ++ parts shard with
      | none => .error (unavailable "model_runtime.local.snapshot")
      | some item =>
        match item.target with
        | .file resolved _ =>
          if files.contains item && approvedRoot.isPrefixOf resolved then .ok ()
          else .error shardError
        | _ => .error shardError
  | _ => .error shardError

def checkShards (approvedRoot : Path) (items files : List Item) (index : Item) :
    List Json.Value → Except Error Unit
  | [] => .ok ()
  | shard :: shards =>
    match checkShard approvedRoot items files index shard with
    | .error e => .error e
    | .ok () => checkShards approvedRoot items files index shards

/-- `_validate_checkpoint_index`, of an index below the snapshot. -/
def validateCheckpointIndex (platform : Platform) (approvedRoot : Path)
    (items files : List Item) (index : Item) (raw : List UInt8) : Except Error Unit :=
  if maxCheckpointIndexBytes < raw.length then .error shardError
  else
    match platform.loads raw with
    | some (.obj fields) =>
      match weightMap fields with
      | some [] => .error shardError
      | some entries => checkShards approvedRoot items files index (entries.map Prod.snd)
      | none => .error shardError
    | _ => .error shardError

/-! ## The digest -/

/-- A file's share of the manifest. -/
structure Record where
  path : List UInt8
  size : Nat
  digest : Sha256
  deriving DecidableEq

def Record.fits (record : Record) : Prop := record.path.length < 256 ^ 4 ∧ record.size < 256 ^ 8

instance (record : Record) : Decidable record.fits := inferInstanceAs (Decidable (_ ∧ _))

def Record.encode (record : Record) : List UInt8 :=
  Framing.bigEndian 4 record.path.length ++ record.path ++ Framing.bigEndian 8 record.size ++
    Framing.bigEndian 32 record.digest.toNat

/-- `as_posix().encode()` of a relative path. -/
def encodePath (path : Path) : List UInt8 := encodeUtf8 (Words.join '/' (path.map String.toList))

def record (platform : Platform) (path : Path) (content : List UInt8) : Record :=
  { path := encodePath path, size := content.length, digest := platform.sha256 content }

def manifestHead : List UInt8 := encodeUtf8 "corpuskit.snapshot.v1".toList ++ [0]

def manifest (records : List Record) : List UInt8 := manifestHead ++ records.flatMap Record.encode

/-- The files of the walk in the order of their paths. -/
def sortedFiles (snapshot : Snapshot) : List Item :=
  (snapshot.entries.filter fun item => item.content.isSome).insertionSort fun a b =>
    snapshot.root ++ a.path ≤ snapshot.root ++ b.path

def isCheckpointIndex (item : Item) : Bool := ".index.json".toList.isSuffixOf item.name

/-- The loop over the files: the records of those that resolve below the root. -/
def records (platform : Platform) (approvedRoot : Path) (items files : List Item) :
    List Item → Except Error (List Record)
  | [] => .ok []
  | item :: rest =>
    match item.target with
    | .file resolved content =>
      if ¬approvedRoot.isPrefixOf resolved then
        .error (unavailable "model_runtime.local.snapshot_boundary")
      else
        match (if isCheckpointIndex item then
          validateCheckpointIndex platform approvedRoot items files item content else .ok ()) with
        | .error e => .error e
        | .ok () =>
          if ¬(record platform item.path content).fits then
            .error (unavailable "model_runtime.local.snapshot")
          else
            (records platform approvedRoot items files rest).map
              (record platform item.path content :: ·)
    | _ => .error (unavailable "model_runtime.local.snapshot_boundary")

/-- `compute_snapshot_digest`, of a snapshot and an approved root that resolve. -/
def computeSnapshotDigest (platform : Platform) (approvedRoot : Path) (snapshot : Snapshot) :
    Except Error Sha256 :=
  let files := sortedFiles snapshot
  if !snapshot.isDirectory || !approvedRoot.isPrefixOf snapshot.root then
    .error (unavailable "model_runtime.local.snapshot")
  else if snapshot.entries.any fun item =>
      (item.isDirectory && item.isSymlink) || decide (item.target = .other) then
    .error (unavailable "model_runtime.local.snapshot_boundary")
  else if files.isEmpty || decide (maxSnapshotFiles < files.length) then
    .error (unavailable "model_runtime.local.snapshot")
  else if files.any fun item => unsafeWeightSuffixes.contains (platform.casefold (suffix item.name)) then
    .error (unavailable "model_runtime.local.unsafe_weights")
  else if !files.any fun item => platform.casefold (suffix item.name) = safetensors then
    .error (unavailable "model_runtime.local.safetensors_required")
  else (records platform approvedRoot snapshot.items files files).map fun records =>
    platform.sha256 (manifest records)

end CorpusKit.Snapshots
