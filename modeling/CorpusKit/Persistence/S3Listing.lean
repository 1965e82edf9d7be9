import CorpusKit.Persistence.FilesystemStore

/-! # Listing the S3 object store

`S3ObjectStore.list_keys` asks `list_objects_v2` for one page after another. Python's
`while` has no bound, so the loop takes fuel: `none` says that it ran out. -/

namespace CorpusKit

namespace S3ObjectStore

open ObjectStore

/-- The arguments of `list_objects_v2`; the namespace is its `Prefix`. -/
structure ListRequest where
  bucket : String
  start : String
  maxKeys : Nat
  startAfter : Option String
  continuationToken : Option String
  deriving DecidableEq, Repr

/-- Its answer: each item of `Contents` with its `Key`, if it has one, and
`NextContinuationToken`, if it is a string. -/
structure ListResponse where
  contents : List (Option String)
  isTruncated : Bool
  nextContinuationToken : Option String
  deriving DecidableEq, Repr

def ListResponse.keys (response : ListResponse) : List String := response.contents.reduceOption

/-- What the client raises. -/
inductive ClientFailure
  | clientError
  | botoCoreError
  deriving DecidableEq, Repr

abbrev Client := ListRequest → Except ClientFailure ListResponse

/-- `_validate_listing`. -/
def validateListing (start : String) (limit : Nat) (after : Option String) : Except Error Unit :=
  if FilesystemObjectStore.validPrefix start = false then .error (.value "invalid object prefix")
  else if ¬ (1 ≤ limit ∧ limit ≤ 10000) then .error (.value "object listing limit is invalid")
  else match after with
    | none => .ok ()
    | some cursor =>
      if validKey cursor = false then .error (.value "invalid object key")
      else if startsWith cursor start then .ok ()
      else .error (.value "object listing cursor is invalid")

/-- The request for the next page: it starts after the cursor until there is a token. -/
def nextRequest (bucket start : String) (limit : Nat) (after continuation : Option String)
    (keys : List String) : ListRequest where
  bucket := bucket
  start := start
  maxKeys := min 1000 (limit - keys.length)
  startAfter := if continuation.isNone then after else none
  continuationToken := continuation

/-- The loop of `list_keys`. -/
def listPages (client : Client) (bucket start : String) (limit : Nat) (after : Option String) :
    Nat → Option String → List String → Option (Except Error (List String))
  | 0, _, _ => none
  | fuel + 1, continuation, keys =>
    if keys.length < limit then
      match client (nextRequest bucket start limit after continuation keys) with
      | .error _ => some (.error (.objectStore "object listing failed"))
      | .ok response =>
        if response.isTruncated then
          match response.nextContinuationToken.filter (· ≠ "") with
          | none => some (.error (.objectStore "object listing continuation is invalid"))
          | some token =>
            listPages client bucket start limit after fuel (some token) (keys ++ response.keys)
        else some (.ok ((keys ++ response.keys).take limit))
    else some (.ok (keys.take limit))

def listKeys (client : Client) (bucket start : String) (limit : Nat) (after : Option String)
    (fuel : Nat) : Option (Except Error (List String)) :=
  match validateListing start limit after with
  | .error e => some (.error e)
  | .ok () => listPages client bucket start limit after fuel none []

end S3ObjectStore

end CorpusKit
