import CorpusKit.Domain.Errors
import CorpusKit.Library.Files
import CorpusKit.Library.Words
import CorpusKit.Persistence.ObjectStore

/-! # The filesystem object store

An object is a file under its key with a second file of metadata beside it. A
put makes and renames both, one after the other; a delete unlinks both. Each
operation decides what to do from the disk as it is and then takes file-system
steps, any of which may be the last one the process takes. -/

namespace CorpusKit

namespace FilesystemObjectStore

open Files ObjectStore

abbrev Bytes := List UInt8

/-- The JSON object `_write_metadata` writes. -/
structure Metadata where
  mediaType : String
  sha256 : Sha256
  sizeBytes : Nat
  deriving DecidableEq, Repr

/-- What a file holds: bytes, or the metadata of an object as a whole. -/
inductive Content
  | bytes (content : Bytes)
  | metadata (metadata : Metadata)
  deriving DecidableEq, Repr

abbrev Disk := Files.Disk Content

structure ObjectDescriptor where
  key : String
  sizeBytes : Nat
  sha256 : Sha256
  mediaType : String
  modifiedAt : Nat
  deriving DecidableEq, Repr

structure PutResult where
  descriptor : ObjectDescriptor
  created : Bool
  deriving DecidableEq, Repr

structure PutRequest where
  key : String
  content : Bytes
  sha256 : Sha256
  mediaType : String
  deriving DecidableEq, Repr

def PutRequest.metadata (r : PutRequest) : Metadata := ⟨r.mediaType, r.sha256, r.content.length⟩

def PutRequest.descriptor (r : PutRequest) (now : Nat) : ObjectDescriptor :=
  ⟨r.key, r.content.length, r.sha256, r.mediaType, now⟩

/-! ## Paths -/

def isSlash (c : Char) : Bool := c == '/'

/-- `Path(*key.split("/"))`: empty components vanish. -/
def components (key : String) : Path := Words.words isSlash key.toList

def metadataSuffix : List Char := ".metadata.json".toList
def uploadPrefix : List Char := ".upload-".toList
def metadataPrefix : List Char := ".metadata-".toList

/-- The path with the last component changed. -/
def withName (p : Path) (f : List Char → List Char) : Path :=
  p.dropLast ++ [f (p.getLast?.getD [])]

def metadataPath (p : Path) : Path := withName p fun name => name ++ metadataSuffix

/-- A temporary file beside the path; `tempfile` chooses the rest of its name. -/
def temporaryPath (p : Path) (first name : List Char) : Path := withName p fun _ => first ++ name

/-! ## Checks -/

/-- `_validate_descriptor`; sizes and digests are well formed by their types. -/
def validMediaType (mediaType : String) : Bool :=
  decide (mediaType ≠ "" ∧ mediaType.length ≤ 160)

/-- `_validate_put`. -/
def validatePut (hash : Bytes → Sha256) (r : PutRequest) : Except Error Unit :=
  if validKey r.key = false then .error (.value "invalid object key")
  else if r.sha256 ≠ hash r.content then .error (.objectStore "upload checksum is invalid")
  else if validMediaType r.mediaType then .ok () else .error (.objectStore "object media type is invalid")

/-- `_verify_descriptor`. -/
def verifyDescriptor (actual expected : ObjectDescriptor) : Except Error Unit :=
  if validMediaType actual.mediaType = false then .error (.objectStore "object media type is invalid")
  else if actual.key = expected.key ∧ actual.sizeBytes = expected.sizeBytes ∧
      actual.sha256 = expected.sha256 ∧ actual.mediaType = expected.mediaType then .ok ()
  else .error (.objectStore "object metadata does not match its content address")

/-! ## Reading -/

/-- What the operating system answers when a directory of the path is a file. -/
def notADirectory : Error := .runtime "not a directory"

/-- `_stat_sync`. -/
def statSync (disk : Disk) (key : String) : Except Error ObjectDescriptor :=
  let p := components key
  if disk.blocks p.dropLast then .error notADirectory else
  match disk.files.lookup (metadataPath p) with
  | none => .error (.objectNotFound "object not found")
  | some ⟨.bytes _, _⟩ => .error (.objectStore "object metadata is invalid")
  | some ⟨.metadata m, _⟩ =>
    match disk.files.lookup p with
    | none =>
      if disk.directories.contains p then .error (.objectStore "stored object size is invalid")
      else .error (.objectNotFound "object not found")
    | some ⟨.metadata _, _⟩ => .error (.objectStore "stored object size is invalid")
    | some ⟨.bytes content, modifiedAt⟩ =>
      if content.length ≠ m.sizeBytes then .error (.objectStore "stored object size is invalid")
      else if validMediaType m.mediaType then
        .ok ⟨key, m.sizeBytes, m.sha256, m.mediaType, modifiedAt⟩
      else .error (.objectStore "object media type is invalid")

def stat (disk : Disk) (key : String) : Except Error ObjectDescriptor :=
  if validKey key then statSync disk key else .error (.value "invalid object key")

/-- `open`, with the bytes of all its chunks. -/
def openObject (disk : Disk) (key : String) : Except Error (ObjectDescriptor × Bytes) := do
  let descriptor ← stat disk key
  match disk.files.lookup (components key) with
  | some ⟨.bytes content, _⟩ => .ok (descriptor, content)
  | _ => .error (.objectNotFound "object not found")

/-- The files `list_keys` takes for objects, each as its key. -/
def isObjectName (name : List Char) : Bool :=
  !metadataSuffix.isSuffixOf name && !uploadPrefix.isPrefixOf name

def storedKeys (disk : Disk) : List String :=
  (disk.files.keys.filter fun p => isObjectName (p.getLast?.getD [])).map fun p =>
    String.ofList (path p)

/-- `_validate_prefix`. -/
def validPrefix (start : String) : Bool :=
  start ≠ "" && isSafeKey (start.toList.reverse.dropWhile isSlash).reverse &&
    !hasDoubleSlash start.toList

/-- `_validate_listing`. -/
def validListing (start : String) (limit : Nat) (after : Option String) : Bool :=
  validPrefix start && decide (1 ≤ limit ∧ limit ≤ 10000) &&
    after.all fun cursor => validKey cursor && startsWith cursor start

def listKeys (disk : Disk) (start : String) (limit : Nat) (after : Option String) :
    Except Error (List String) :=
  if validListing start limit after then
    .ok ((((storedKeys disk).filter fun key => startsWith key start &&
      after.all fun cursor => decide (cursor < key)).insertionSort (· ≤ ·)).take limit)
  else .error (.value "object listing is invalid")

/-! ## Operations -/

/-- `_hash_path`. -/
def hashPath (hash : Bytes → Sha256) (disk : Disk) (p : Path) : Option Sha256 :=
  match disk.files.lookup p with
  | some ⟨.bytes content, _⟩ => some (hash content)
  | _ => none

/-- The steps of a put that creates its object. -/
def creation (r : PutRequest) (upload sidecar : List Char) : List (Action Content) :=
  let p := components r.key
  [.mkdir p.dropLast,
    .write (temporaryPath p uploadPrefix upload) (.bytes []),
    .write (temporaryPath p uploadPrefix upload) (.bytes r.content),
    .rename (temporaryPath p uploadPrefix upload) p,
    .write (temporaryPath p metadataPrefix sidecar) (.bytes []),
    .write (temporaryPath p metadataPrefix sidecar) (.metadata r.metadata),
    .rename (temporaryPath p metadataPrefix sidecar) (metadataPath p)]

/-- `_put_sync`: what it answers, and the steps it takes. -/
def putSync (hash : Bytes → Sha256) (disk : Disk) (r : PutRequest) (upload sidecar : List Char)
    (now : Nat) : Except Error (PutResult × List (Action Content)) :=
  if disk.exists (components r.key) then do
    let existing ← statSync disk r.key
    verifyDescriptor existing (r.descriptor now)
    if hashPath hash disk (components r.key) = some r.sha256 then .ok (⟨existing, false⟩, [])
    else .error (.objectStore "stored object hash is invalid")
  else if disk.blocks (components r.key).dropLast then .error notADirectory
  else .ok (⟨r.descriptor now, true⟩, creation r upload sidecar)

def put (hash : Bytes → Sha256) (disk : Disk) (r : PutRequest) (upload sidecar : List Char)
    (now : Nat) : Except Error (PutResult × List (Action Content)) := do
  validatePut hash r
  putSync hash disk r upload sidecar now

/-- The steps of `delete`. -/
def removal (key : String) : List (Action Content) :=
  [.unlink (components key), .unlink (metadataPath (components key))]

def delete (disk : Disk) (key : String) : Except Error (List (Action Content)) :=
  if validKey key = false then .error (.value "invalid object key")
  else if disk.blocks (components key).dropLast then .error notADirectory
  else if disk.directories.contains (components key) then .error (.runtime "is a directory")
  else .ok (removal key)

/-! ## Runs with crashes -/

inductive Operation
  | put (request : PutRequest) (upload sidecar : List Char)
  | delete (key : String)

/-- An operation, and after how many steps the process stopped in it, if it did. -/
structure Event where
  operation : Operation
  stopped : Option Nat
  now : Nat

def Operation.steps (hash : Bytes → Sha256) (disk : Disk) (now : Nat) :
    Operation → Except Error (List (Action Content))
  | .put r upload sidecar => (FilesystemObjectStore.put hash disk r upload sidecar now).map Prod.snd
  | .delete key => FilesystemObjectStore.delete disk key

/-- An operation that is refused takes no step. -/
def perform (hash : Bytes → Sha256) (disk : Disk) (event : Event) : Disk :=
  match event.operation.steps hash disk event.now with
  | .error _ => disk
  | .ok steps =>
    match event.stopped with
    | none => run event.now disk steps
    | some count => run event.now disk (steps.take count)

/-- The disk after operations and restarts, from an empty root. -/
def history (hash : Bytes → Sha256) (events : List Event) : Disk :=
  events.foldl (perform hash) {}

end FilesystemObjectStore

end CorpusKit
