import CorpusKit.Domain.RunSpecs
import CorpusKit.Library.Json

/-! # Verifying bearer tokens

`OidcJwtVerifier`: the keys of the provider are cached, and fetched again by one
request at a time. Any number of requests are under way; one runs until it waits for
the lock or for a document of the provider. -/

namespace CorpusKit.Auth

open Json

/-- A JSON object. -/
abbrev Fields := List (List Char × Value)

def isText (text : List Char) : Option Value → Bool
  | some (.str value) => value == text
  | _ => false

def maxTokenBytes : Nat := 16384

def maxJwksKeys : Nat := 100

/-- `AuthenticationError` and `AuthenticationUnavailableError`. -/
inductive AuthError
  | authentication
  | unavailable
  deriving DecidableEq, Repr

inductive AuthRole
  | owner
  | admin
  | editor
  | viewer
  deriving DecidableEq, Repr

def AuthRole.value : AuthRole → List Char
  | .owner => "owner".toList
  | .admin => "admin".toList
  | .editor => "editor".toList
  | .viewer => "viewer".toList

def authRole (value : List Char) : Option AuthRole :=
  if value = "owner".toList then some .owner
  else if value = "admin".toList then some .admin
  else if value = "editor".toList then some .editor
  else if value = "viewer".toList then some .viewer
  else none

structure Principal where
  subject : List Char
  organizationId : Uuid
  role : AuthRole
  displayName : Option (List Char)
  deriving DecidableEq, Repr

/-! ## URLs -/

/-- What `urlsplit` finds in a URL; its host name is in lower case. -/
structure SplitUrl where
  scheme : List Char
  hostname : Option (List Char)
  port : Option Nat
  username : Option (List Char)
  password : Option (List Char)
  query : List Char
  fragment : List Char
  deriving DecidableEq, Repr

/-- `_validate_https_url` accepts what `urlsplit` has made of the value. -/
def SplitUrl.valid (url : SplitUrl) (value : List Char) : Bool :=
  url.scheme == "https".toList && url.hostname.any (fun host => !host.isEmpty) &&
    url.username.isNone && url.password.isNone && url.query.isEmpty && url.fragment.isEmpty &&
    (url.port.isNone || url.port == some 443) &&
    value.all fun c => decide (33 ≤ c.toNat ∧ c.toNat ≤ 126)

/-- `_url_origin`. -/
def SplitUrl.origin (url : SplitUrl) : List Char × Option (List Char) × Nat :=
  (url.scheme, url.hostname.map fun host => host.map Char.toLower, url.port.getD 443)

/-! ## The verifier -/

/-- A `PyJWK`: what the verifier asks of it, and the key. -/
structure Jwk (κ : Type) where
  keyType : Option Value
  publicKeyUse : Option Value
  key : κ

/-- The settings as the constructor accepts them, and the libraries: `urlsplit`, `jwt.get_unverified_header`, `PyJWK.from_dict`,
`jwt.decode` with the verifier's options at a time of day, and `UUID`. What raises is `none`. -/
structure OidcJwtVerifier (κ : Type) where
  issuer : List Char
  algorithms : List (List Char)
  organizationClaim : List Char
  roleClaim : List Char
  cacheSeconds : Nat
  refreshCooldownSeconds : Nat
  urlsplit : List Char → Option SplitUrl
  header : String → Option Fields
  fromDict : Fields → Option (Jwk κ)
  decode : κ → String → Instant → Option Fields
  uuid : List Char → Option Uuid
  issuer_valid : (urlsplit issuer).any (fun url => url.valid issuer) = true
  algorithms_rs256 : algorithms ≠ [] ∧ ∀ algorithm ∈ algorithms, algorithm = "RS256".toList
  seconds_positive : 0 < cacheSeconds ∧ 0 < refreshCooldownSeconds

/-- The keys under their identifiers, and what is known of the refreshes. -/
structure KeyCache (κ : Type) where
  keys : List (List Char × κ)
  refreshedAt : Option Instant
  lastRefreshAttempt : Option Instant
  lastRefreshFailed : Bool

def KeyCache.empty {κ : Type} : KeyCache κ := ⟨[], none, none, false⟩

namespace OidcJwtVerifier

variable {κ : Type} (v : OidcJwtVerifier κ)

def originOf (url : List Char) : Option (List Char × Option (List Char) × Nat) :=
  (v.urlsplit url).map SplitUrl.origin

def validateHttpsUrl (url : List Char) : Bool := (v.urlsplit url).any fun parts => parts.valid url

/-! ## The documents of the provider -/

/-- Where the discovery document says the keys are, if `_refresh_keys` goes there. -/
def jwksUri (metadata : Fields) : Option (List Char) :=
  if isText v.issuer (metadata.lookup "issuer".toList) then
    match metadata.lookup "jwks_uri".toList with
    | some (.str uri) =>
      if v.validateHttpsUrl uri && v.originOf uri == v.originOf v.issuer then some uri else none
    | _ => none
  else none

/-- `value in {None, accepted}`; a list or a dictionary has no hash. -/
def inSet (accepted : List Char) : Option Value → Option Bool
  | none => some true
  | some .null => some true
  | some (.str text) => some (text == accepted)
  | some (.arr _) => none
  | some (.obj _) => none
  | some _ => some false

/-- The key operations do not forbid to verify. -/
def allowsVerify : Option Value → Bool
  | none => true
  | some .null => true
  | some (.arr operations) => operations.any fun operation => isText "verify".toList (some operation)
  | some _ => false

/-- `key.key_type == "RSA" and key.public_key_use in {None, "sig"}`. -/
def isSigningKey (key : Jwk κ) : Option Bool :=
  if isText "RSA".toList key.keyType then inSet "sig".toList key.publicKeyUse else some false

/-- The key an entry of the document is, if the loop takes it. -/
def keyOf (fields : Fields) : Option (Option κ) :=
  match inSet "RS256".toList (fields.lookup "alg".toList) with
  | none => none
  | some false => some none
  | some true =>
    if allowsVerify (fields.lookup "key_ops".toList) then
      match v.fromDict fields with
      | none => none
      | some key => (isSigningKey key).map fun signing => if signing then some key.key else none
    else some none

/-- One round of the loop over `raw_keys`. -/
def readKey (parsed : List (List Char × κ)) : Value → Option (List (List Char × κ))
  | .obj fields =>
    match fields.lookup "kid".toList with
    | some (.str keyId) =>
      if keyId = [] ∨ 128 < keyId.length then some parsed
      else if (parsed.map Prod.fst).contains keyId then
        (inSet "RS256".toList (fields.lookup "alg".toList)).map fun _ => parsed
      else (v.keyOf fields).map fun found =>
        parsed ++ (found.map fun key => (keyId, key)).toList
    | _ => some parsed
  | _ => some parsed

/-- The keys of a JWKS document, if there is one. -/
def jwksKeys (document : Fields) : Option (List (List Char × κ)) :=
  match document.lookup "keys".toList with
  | some (.arr raw) =>
    if raw.isEmpty ∨ maxJwksKeys < raw.length then none
    else (raw.foldlM v.readKey []).filter fun parsed => !parsed.isEmpty
  | _ => none

/-! ## The token -/

/-- The key identifier of a token `authenticate` looks up a key for. -/
def keyId (token : Option String) : Option (List Char) :=
  match token with
  | none => none
  | some token =>
    if token.isEmpty ∨ maxTokenBytes < token.utf8ByteSize then none
    else
      match v.header token with
      | none => none
      | some header =>
        if v.algorithms.any fun algorithm => isText algorithm (header.lookup "alg".toList) then
          match header.lookup "kid".toList with
          | some (.str keyId) => if keyId = [] ∨ 128 < keyId.length then none else some keyId
          | _ => none
        else none

/-- A claim that is there is a number, and not a truth value. -/
def numericDate : Option Value → Bool
  | none => true
  | some .null => true
  | some (.int _) => true
  | some (.float _) => true
  | some _ => false

/-- The display name of the claims, or none; `none` when it is no text. -/
def displayName : Option Value → Option (Option (List Char))
  | none => some none
  | some .null => some none
  | some (.str name) => if 160 < name.length then none else some (some name)
  | some _ => none

/-- `_principal_from_claims`. -/
def principalFromClaims (claims : Fields) : Option Principal :=
  match claims.lookup "sub".toList, claims.lookup v.organizationClaim, claims.lookup v.roleClaim with
  | some (.str subject), some (.str organization), some (.str role) =>
    if subject = [] ∨ 255 < subject.length then none
    else
      match displayName (claims.lookup "name".toList) with
      | none => none
      | some name =>
        if numericDate (claims.lookup "exp".toList) && numericDate (claims.lookup "nbf".toList) then
          match v.uuid organization, authRole role with
          | some organizationId, some role => some ⟨subject, organizationId, role, name⟩
          | _, _ => none
        else none
  | _, _, _ => none

/-- What `authenticate` makes of a token once it has the key. -/
def verify (key : κ) (token : String) (wall : Instant) : Except AuthError Principal :=
  match (v.decode key token wall).bind v.principalFromClaims with
  | none => .error .authentication
  | some principal => .ok principal

/-! ## The key cache -/

/-- `now - self._refreshed_at <= self._cache_seconds`. -/
def isFresh (cache : KeyCache κ) (now : Instant) : Bool :=
  cache.refreshedAt.any fun refreshedAt => decide (now - refreshedAt ≤ seconds v.cacheSeconds)

def cooldownActive (cache : KeyCache κ) (now : Instant) : Bool :=
  cache.lastRefreshAttempt.any fun attempt =>
    decide (now - attempt < seconds v.refreshCooldownSeconds)

def cached (cache : KeyCache κ) (now : Instant) (keyId : List Char) : Option κ :=
  if v.isFresh cache now then cache.keys.lookup keyId else none

end OidcJwtVerifier

/-! ## Requests -/

inductive Phase
  /-- For the lock. -/
  | waiting
  /-- For the discovery document. -/
  | metadata (startedAt : Instant)
  /-- For the keys. -/
  | jwks (startedAt : Instant) (metadata : Fields) (uri : List Char)
  | answered (result : Except AuthError Principal)
  | cancelled

/-- When the refresh a request runs began. -/
def Phase.startedAt? : Phase → Option Instant
  | .metadata startedAt => some startedAt
  | .jwks startedAt _ _ => some startedAt
  | _ => none

def Phase.answer? : Phase → Option (Except AuthError Principal)
  | .answered result => some result
  | _ => none

/-- A call of `authenticate`. -/
structure Authentication where
  token : Option String
  keyId : List Char
  phase : Phase

inductive Outcome
  | running
  | failed
  | abandoned
  | fetched (metadata : Fields) (uri : List Char) (document : Fields)

/-- A refresh of the keys, and the request that runs it. -/
structure Refresh where
  startedAt : Instant
  requestedBy : Nat
  outcome : Outcome

/-- The verifier in its process: the monotonic clock and the time of day, the requests so far, and
the refreshes so far, latest first. -/
structure State (κ : Type) where
  now : Instant
  wall : Instant
  cache : KeyCache κ
  lock : Option Nat
  requests : List Authentication
  refreshes : List Refresh

def State.initial {κ : Type} : State κ := ⟨0, 0, .empty, none, [], []⟩

inductive Event
  | tick (elapsed : Nat) (wall : Instant)
  | authenticate (token : Option String)
  /-- A waiting request gets the lock. -/
  | acquire (request : Nat)
  /-- The document a request waits for, or the failure to fetch it. -/
  | answer (request : Nat) (document : Option Fields)
  /-- A request is cancelled, or ends by an exception nobody catches. -/
  | cancel (request : Nat)

namespace State

variable {κ : Type} (s : State κ)

/-- A request moves on. -/
def moved (i : Nat) (phase : Phase) : List Authentication :=
  s.requests.modify i fun a => { a with phase }

/-- The running refresh ends. -/
def settled (outcome : Outcome) : List Refresh :=
  s.refreshes.modifyHead fun r => { r with outcome }

end State

namespace OidcJwtVerifier

variable {κ : Type} (v : OidcJwtVerifier κ)

/-- `authenticate` up to the lock. -/
def enter (s : State κ) (token : Option String) : State κ :=
  match v.keyId token with
  | none => { s with requests := s.requests ++ [⟨token, [], .answered (.error .authentication)⟩] }
  | some keyId =>
    match v.cached s.cache s.now keyId with
    | some key =>
      let result := v.verify key (token.getD "") s.wall
      { s with requests := s.requests ++ [⟨token, keyId, .answered result⟩] }
    | none => { s with requests := s.requests ++ [⟨token, keyId, .waiting⟩] }

/-- `_get_key` with the lock, up to the first request to the provider. -/
def acquire (s : State κ) (i : Nat) (a : Authentication) : State κ :=
  match v.cached s.cache s.now a.keyId with
  | some key =>
    { s with requests := s.moved i (.answered (v.verify key (a.token.getD "") s.wall)) }
  | none =>
    if v.cooldownActive s.cache s.now &&
        (s.cache.lastRefreshFailed || v.isFresh s.cache s.now) then
      let known := (s.cache.keys.lookup a.keyId).isSome || s.cache.lastRefreshFailed
      let error := if known then AuthError.unavailable else .authentication
      { s with requests := s.moved i (.answered (.error error)) }
    else
      { s with
        cache := { s.cache with lastRefreshAttempt := some s.now }
        lock := some i
        requests := s.moved i (.metadata s.now)
        refreshes := ⟨s.now, i, .running⟩ :: s.refreshes }

/-- The refresh fails, and with it the request. -/
def failRefresh (s : State κ) (i : Nat) : State κ :=
  { s with
    cache := { s.cache with lastRefreshFailed := true }
    lock := none
    requests := s.moved i (.answered (.error .unavailable))
    refreshes := s.settled .failed }

/-- The keys are replaced, and the request goes on with its own. -/
def finishRefresh (s : State κ) (i : Nat) (a : Authentication) (startedAt : Instant)
    (metadata : Fields) (uri : List Char) (document : Fields) (keys : List (List Char × κ)) :
    State κ :=
  let result :=
    match keys.lookup a.keyId with
    | none => .error .authentication
    | some key => v.verify key (a.token.getD "") s.wall
  { s with
    cache := { s.cache with keys, refreshedAt := some startedAt, lastRefreshFailed := false }
    lock := none
    requests := s.moved i (.answered result)
    refreshes := s.settled (.fetched metadata uri document) }

/-- What a request does with the document it has waited for. -/
def receive (s : State κ) (i : Nat) (a : Authentication) (document : Option Fields) :
    Option (State κ) :=
  match a.phase with
  | .metadata startedAt =>
    match document with
    | none => some (failRefresh s i)
    | some metadata =>
      match v.jwksUri metadata with
      | none => some (failRefresh s i)
      | some uri => some { s with requests := s.moved i (.jwks startedAt metadata uri) }
  | .jwks startedAt metadata uri =>
    match document with
    | none => some (failRefresh s i)
    | some document =>
      match v.jwksKeys document with
      | none => some (failRefresh s i)
      | some keys => some (v.finishRefresh s i a startedAt metadata uri document keys)
  | _ => none

/-- The lock goes with the request that holds it. -/
def cancel (s : State κ) (i : Nat) (a : Authentication) : Option (State κ) :=
  match a.phase with
  | .waiting => some { s with requests := s.moved i .cancelled }
  | .metadata _ =>
    some { s with lock := none, requests := s.moved i .cancelled, refreshes := s.settled .abandoned }
  | .jwks _ _ _ =>
    some { s with lock := none, requests := s.moved i .cancelled, refreshes := s.settled .abandoned }
  | _ => none

def step (s : State κ) : Event → Option (State κ)
  | .tick elapsed wall => some { s with now := s.now + elapsed, wall }
  | .authenticate token => some (v.enter s token)
  | .acquire i =>
    match s.requests[i]? with
    | some ⟨token, keyId, .waiting⟩ =>
      if s.lock = none then some (v.acquire s i ⟨token, keyId, .waiting⟩) else none
    | _ => none
  | .answer i document => s.requests[i]?.bind fun a => v.receive s i a document
  | .cancel i => s.requests[i]?.bind fun a => cancel s i a

/-- The states the verifier can get to. -/
inductive Reachable : State κ → Prop
  | initial : Reachable .initial
  | step {s s' : State κ} {e : Event} (h : Reachable s) (hstep : v.step s e = some s') : Reachable s'

def run (events : List Event) : Option (State κ) := events.foldlM v.step .initial

end OidcJwtVerifier

end CorpusKit.Auth
