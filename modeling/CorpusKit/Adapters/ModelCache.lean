import CorpusKit.Domain.Errors
import CorpusKit.Library.OrderedDict

/-! # The cache of local models

`CachedLocalModelLoader` keeps the bundles of the keys used last. The loader under
it and the models it makes are not part of it: they are parameters, as what the n-th
call of the loader answers, and as which models have a `close`. -/

namespace CorpusKit

inductive ModelDevice
  | cpu
  | cuda
  deriving DecidableEq, Repr

inductive ModelQuantization
  | none
  | fourBit
  | eightBit
  deriving DecidableEq, Repr

structure ImmutableModelPin where
  model : String
  revision : String
  deriving DecidableEq, Repr

/-- A request of `load`. -/
structure ModelRequest where
  pin : ImmutableModelPin
  device : ModelDevice
  quantization : ModelQuantization
  artifactSha256 : String
  deriving DecidableEq, Repr

def ModelKey : Type := String × String × ModelDevice × ModelQuantization × String
  deriving DecidableEq

def ModelRequest.key (r : ModelRequest) : ModelKey :=
  (r.pin.model, r.pin.revision, r.device, r.quantization, r.artifactSha256)

/-- An object of the process. -/
abbrev ObjectId := Nat

structure LoadedModelBundle where
  model : ObjectId
  tokenizer : ObjectId
  deriving DecidableEq, Repr

/-- What a cached loader is made of: the answers of the loader it wraps, one for each
call, the models that have a callable `close`, and its capacity. -/
structure CachedLocalModelLoader where
  loads : Nat → ModelRequest → Except Error LoadedModelBundle
  closes : ObjectId → Bool
  maxEntries : Nat
  bounded : 1 ≤ maxEntries ∧ maxEntries ≤ 4

namespace CachedLocalModelLoader

/-- `_entries`, how often the loader has been called, and the models that have been
closed. -/
structure State where
  entries : OrderedDict ModelKey LoadedModelBundle
  calls : Nat
  closed : List ObjectId

def initial : State := ⟨.empty, 0, []⟩

variable (cache : CachedLocalModelLoader)

/-- `_cleanup`; what `close` raises is suppressed. -/
def cleanup (closed : List ObjectId) (bundle : LoadedModelBundle) : List ObjectId :=
  if cache.closes bundle.model then closed ++ [bundle.model] else closed

def load (s : State) (request : ModelRequest) : Except Error LoadedModelBundle × State :=
  match s.entries.get? request.key with
  | some cached => (.ok cached, { s with entries := s.entries.put request.key cached })
  | none =>
    match cache.loads s.calls request with
    | .error e => (.error e, { s with calls := s.calls + 1 })
    | .ok loaded =>
      let trimmed := (s.entries.put request.key loaded).trim cache.maxEntries
      (.ok loaded,
        { entries := trimmed.1, calls := s.calls + 1
          closed := (trimmed.2.map Prod.snd).foldl cache.cleanup s.closed })

def clear (s : State) : State :=
  { s with
    entries := .empty
    closed := (s.entries.entries.map Prod.snd).foldl cache.cleanup s.closed }

end CachedLocalModelLoader

end CorpusKit
