import CorpusKit.Library.Base64
import CorpusKit.Library.Script

/-! # Browser sessions and their Redis records

The session record of `AuthService`, the OIDC adapter that accepts the tokens it
holds, and the encrypted record of `RedisSessionStore`. AES-GCM and SHA-256 are
parameters; a clock reading is a time value of ECMAScript. -/

namespace CorpusKit.Web

open Script

/-- A JavaScript string. -/
abbrev Text := List CodeUnit

def text (s : String) : Text := ofChars s.toList

/-- What `Date.now` can return. -/
abbrev TimeValue := { n : Nat // n ≤ 8640000000000000 }

inductive WebAuthMode
  | demo
  | oidc
  | test
  deriving DecidableEq, Repr

def WebAuthMode.value : WebAuthMode → Text
  | .demo => text "demo"
  | .oidc => text "oidc"
  | .test => text "test"

/-- The part of the configuration sessions depend on, as `parseWebAuthConfig` bounds it. -/
structure WebAuthConfig where
  mode : WebAuthMode
  issuer : Text
  clientId : Text
  allowedReturnPaths : List Text
  sessionAbsoluteSeconds : Nat
  sessionIdleSeconds : Nat
  refreshBeforeSeconds : Nat
  transactionSeconds : Nat
  absolute : 300 ≤ sessionAbsoluteSeconds ∧ sessionAbsoluteSeconds ≤ 86400
  idle : 60 ≤ sessionIdleSeconds ∧ sessionIdleSeconds ≤ 86400
  refreshBefore : 5 ≤ refreshBeforeSeconds ∧ refreshBeforeSeconds ≤ 300
  transaction : 60 ≤ transactionSeconds ∧ transactionSeconds ≤ 900

structure BrowserSession where
  mode : WebAuthMode
  subject : Text
  displayName : Option Text
  accessToken : Option Text
  refreshToken : Option Text
  idToken : Option Text
  accessExpiresAt : Option Nat
  csrfToken : Text
  createdAt : Nat
  absoluteExpiresAt : Nat
  idleExpiresAt : Nat
  deriving DecidableEq, Repr

/-! ## Text checks -/

def isControl (u : CodeUnit) : Bool := u.val ≤ 0x1F || u.val == 0x7F

/-- White space and line terminators, as `trim` removes them. -/
def isSpace (u : CodeUnit) : Bool :=
  (0x9 ≤ u.val && u.val ≤ 0xD) || u.val == 0x20 || u.val == 0xA0 || u.val == 0x1680 ||
    (0x2000 ≤ u.val && u.val ≤ 0x200A) || u.val == 0x2028 || u.val == 0x2029 || u.val == 0x202F ||
    u.val == 0x205F || u.val == 0x3000 || u.val == 0xFEFF

/-- `value === value.trim()`. -/
def isTrimmed (s : Text) : Bool := !s.head?.any isSpace && !s.getLast?.any isSpace

/-- The number of code points, which patterns with the `u` flag count. -/
def codePoints : Text → Nat
  | [] => 0
  | [_] => 1
  | u :: v :: rest =>
    if isLead u && isTrail v then codePoints rest + 1 else codePoints (v :: rest) + 1

/-- `/^[^\u0000-\u001F\u007F]{1,255}$/u`. -/
def matchesText (s : Text) : Bool :=
  1 ≤ codePoints s && codePoints s ≤ 255 && !s.any isControl

/-- `/^[\u0021-\u007E]{1,65536}$/u`. -/
def validToken (s : Text) : Bool :=
  1 ≤ s.length && s.length ≤ 65536 && s.all fun u => 0x21 ≤ u.val && u.val ≤ 0x7E

/-- `/^[A-Za-z0-9_-]{43,128}$/u`. -/
def isOpaque (s : Text) : Bool :=
  43 ≤ s.length && s.length ≤ 128 &&
    s.all fun u => u.val < 128 && Base64.isDigit (Char.ofNat u.val)

/-- Thirty-two random bytes. -/
structure Opaque where
  bytes : List UInt8
  length : bytes.length = 32

/-- `randomOpaque`. -/
def Opaque.text (o : Opaque) : Text := ofChars (Base64.encode o.bytes)

/-! ## The OIDC adapter -/

/-- The `aud` claim: a string, or a list of values of which some are strings. -/
inductive Audience
  | text (value : Text)
  | list (values : List (Option Text))
  | other
  deriving DecidableEq, Repr

/-- Claims of an ID token; `none` where a claim is missing or no string. -/
structure IdTokenClaims where
  iss : Option Text
  aud : Audience
  sub : Option Text
  name : Option Text
  deriving DecidableEq, Repr

/-- A token endpoint response; `none` where a value is missing or no string. -/
structure TokenResponse where
  claims : Option IdTokenClaims
  accessToken : Option Text
  refreshToken : Option Text
  idToken : Option Text
  tokenType : Text
  expiresIn : Option Int
  deriving DecidableEq, Repr

structure OidcTokenSet where
  subject : Text
  displayName : Option Text
  accessToken : Text
  refreshToken : Option Text
  idToken : Option Text
  expiresAt : Nat
  deriving DecidableEq, Repr

structure OidcRefreshSet where
  subject : Option Text
  accessToken : Text
  refreshToken : Option Text
  idToken : Option Text
  expiresAt : Nat
  deriving DecidableEq, Repr

def audienceMatches (config : WebAuthConfig) : Audience → Bool
  | .text value => value == config.clientId
  | .list values => !values.isEmpty && values.all Option.isSome && values.contains config.clientId
  | .other => false

def validSubject (sub : Text) : Bool :=
  !sub.isEmpty && sub.length ≤ 255 && isTrimmed sub && !sub.any isControl

/-- `validateClaims`: the subject of acceptable claims. -/
def validateClaims (config : WebAuthConfig) (claims : IdTokenClaims) : Option Text :=
  match claims.sub with
  | some sub =>
    if claims.iss = some config.issuer ∧ audienceMatches config claims.aud ∧ validSubject sub then
      some sub
    else none
  | none => none

/-- `displayName`: the name claim where it can be shown. -/
def displayName (claims : IdTokenClaims) : Option Text :=
  claims.name.filter fun name =>
    !name.isEmpty && name.length ≤ 160 && isTrimmed name && !name.any isControl

/-- `expiration`. -/
def expiration (expiresIn : Option Int) (now : Nat) : Option Nat :=
  match expiresIn with
  | some seconds => if 30 ≤ seconds ∧ seconds ≤ 86400 then some (now + seconds.toNat * 1000) else none
  | none => none

def asciiLower (s : Text) : Text :=
  s.map fun u => if 0x41 ≤ u.val ∧ u.val ≤ 0x5A then Fin.ofNat 65536 (u.val + 32) else u

def isBearer (tokenType : Text) : Bool := asciiLower tokenType == text "bearer"

/-- `OpenIdClientProvider.exchange`, once the response is there. -/
def exchange (config : WebAuthConfig) (now : Nat) (response : TokenResponse) :
    Option OidcTokenSet := do
  let claims ← response.claims
  let subject ← validateClaims config claims
  let accessToken ← response.accessToken.filter validToken
  let refreshToken ← response.refreshToken.filter validToken
  let idToken ← response.idToken.filter validToken
  guard (isBearer response.tokenType)
  let expiresAt ← expiration response.expiresIn now
  pure { subject, displayName := displayName claims, accessToken, refreshToken := some refreshToken
         idToken := some idToken, expiresAt }

/-- The subject of a refreshed ID token, where one came. -/
def refreshSubject (config : WebAuthConfig) : Option IdTokenClaims → Option (Option Text)
  | none => some none
  | some claims => (validateClaims config claims).map some

/-- `OpenIdClientProvider.refresh`, once the response is there. -/
def refresh (config : WebAuthConfig) (now : Nat) (response : TokenResponse) :
    Option OidcRefreshSet := do
  let accessToken ← response.accessToken.filter validToken
  guard (response.refreshToken.all validToken && response.idToken.all validToken &&
    isBearer response.tokenType)
  let subject ← refreshSubject config response.claims
  let expiresAt ← expiration response.expiresIn now
  pure { subject, accessToken, refreshToken := response.refreshToken
         idToken := response.idToken, expiresAt }

/-! ## Sessions the service builds -/

/-- The session `completeLogin` makes of the tokens. -/
def loginSession (config : WebAuthConfig) (tokens : OidcTokenSet) (csrfToken : Opaque)
    (currentTime : Nat) : BrowserSession where
  mode := .oidc
  subject := tokens.subject
  displayName := tokens.displayName.filter fun name => !name.isEmpty
  accessToken := some tokens.accessToken
  refreshToken := tokens.refreshToken
  idToken := tokens.idToken
  accessExpiresAt := some tokens.expiresAt
  csrfToken := csrfToken.text
  createdAt := currentTime
  absoluteExpiresAt := currentTime + config.sessionAbsoluteSeconds * 1000
  idleExpiresAt := min (currentTime + config.sessionAbsoluteSeconds * 1000)
    (currentTime + config.sessionIdleSeconds * 1000)

/-- The session `refreshLocked` saves. -/
def refreshedSession (session : BrowserSession) (refreshed : OidcRefreshSet) : BrowserSession :=
  { session with
    accessToken := some refreshed.accessToken
    accessExpiresAt := some refreshed.expiresAt
    refreshToken := refreshed.refreshToken <|> session.refreshToken
    idToken := refreshed.idToken <|> session.idToken }

/-- The session `resolveSession` saves when it was used. -/
def usedSession (config : WebAuthConfig) (session : BrowserSession) (currentTime : Nat) :
    BrowserSession :=
  { session with
    idleExpiresAt := min session.absoluteExpiresAt (currentTime + config.sessionIdleSeconds * 1000) }

/-- `maximumAge`, in seconds. -/
def maximumAge (session : BrowserSession) (now : Nat) : Nat :=
  max 1 ((min session.absoluteExpiresAt session.idleExpiresAt - now + 999) / 1000)

/-- The sessions the service builds from accepted tokens, one update at a time. -/
inductive Built (config : WebAuthConfig) : BrowserSession → Prop
  | login {response : TokenResponse} {tokens : OidcTokenSet} (received currentTime : TimeValue)
      (csrfToken : Opaque) (h : exchange config received response = some tokens) :
      Built config (loginSession config tokens csrfToken currentTime)
  | refresh {session : BrowserSession} {response : TokenResponse} {refreshed : OidcRefreshSet}
      (received : TimeValue) (hs : Built config session)
      (h : refresh config received response = some refreshed)
      (hsubject : ∀ subject ∈ refreshed.subject, subject = session.subject) :
      Built config (refreshedSession session refreshed)
  | use {session : BrowserSession} (currentTime : TimeValue) (hs : Built config session)
      (hlive : currentTime < session.absoluteExpiresAt ∧ currentTime < session.idleExpiresAt) :
      Built config (usedSession config session currentTime)

/-! ## The record -/

inductive SessionKey
  | version
  | mode
  | subject
  | displayName
  | accessToken
  | refreshToken
  | idToken
  | accessExpiresAt
  | csrfToken
  | createdAt
  | absoluteExpiresAt
  | idleExpiresAt
  deriving DecidableEq, Repr

def SessionKey.name : SessionKey → Text
  | .version => text "version"
  | .mode => text "mode"
  | .subject => text "subject"
  | .displayName => text "displayName"
  | .accessToken => text "accessToken"
  | .refreshToken => text "refreshToken"
  | .idToken => text "idToken"
  | .accessExpiresAt => text "accessExpiresAt"
  | .csrfToken => text "csrfToken"
  | .createdAt => text "createdAt"
  | .absoluteExpiresAt => text "absoluteExpiresAt"
  | .idleExpiresAt => text "idleExpiresAt"

/-- The properties in the order the service writes them. -/
def SessionKey.all : List SessionKey :=
  [.version, .mode, .subject, .displayName, .accessToken, .refreshToken, .idToken,
    .accessExpiresAt, .csrfToken, .createdAt, .absoluteExpiresAt, .idleExpiresAt]

def SessionKey.required : List SessionKey :=
  [.absoluteExpiresAt, .createdAt, .csrfToken, .idleExpiresAt, .mode, .subject, .version]

/-- The value of a property; `none` where it is undefined. -/
def BrowserSession.cell (s : BrowserSession) : SessionKey → Option Cell
  | .version => some (.integer 1)
  | .mode => some (.text s.mode.value)
  | .subject => some (.text s.subject)
  | .displayName => s.displayName.map .text
  | .accessToken => s.accessToken.map .text
  | .refreshToken => s.refreshToken.map .text
  | .idToken => s.idToken.map .text
  | .accessExpiresAt => s.accessExpiresAt.map .integer
  | .csrfToken => some (.text s.csrfToken)
  | .createdAt => some (.integer s.createdAt)
  | .absoluteExpiresAt => some (.integer s.absoluteExpiresAt)
  | .idleExpiresAt => some (.integer s.idleExpiresAt)

def BrowserSession.fields (s : BrowserSession) : List (Text × Cell) :=
  SessionKey.all.filterMap fun key => (s.cell key).map fun cell => (key.name, cell)

/-- `JSON.stringify(record)`. -/
def BrowserSession.json (s : BrowserSession) : List Char := stringify s.fields

/-! ### `decodeSession` -/

/-- `safeTime`. -/
def safeTime (value : Option Scalar) : Option Nat :=
  match value with
  | some (.number q) => if q.den = 1 ∧ 0 ≤ q.num ∧ q.num < 2 ^ 53 then some q.num.toNat else none
  | _ => none

/-- A property that may be undefined and otherwise passes a check. -/
def optionally {α : Type} (check : Scalar → Option α) : Option Scalar → Option (Option α)
  | none => some none
  | some value => (check value).map some

/-- A string that passes a check. -/
def string (p : Text → Bool) : Scalar → Option Text
  | .str s => if p s then some s else none
  | _ => none

def optionalText (maximum : Nat) : Option Scalar → Option (Option Text) :=
  optionally (string fun s => s.length ≤ maximum && isTrimmed s && matchesText s)

def optionalToken : Option Scalar → Option (Option Text) := optionally (string validToken)

def decodeMode : Option Scalar → Option WebAuthMode
  | some (.str s) =>
    if s = WebAuthMode.demo.value then some .demo
    else if s = WebAuthMode.oidc.value then some .oidc
    else if s = WebAuthMode.test.value then some .test
    else none
  | _ => none

/-- The relations between the properties. -/
def consistent (s : BrowserSession) : Bool :=
  s.createdAt < s.absoluteExpiresAt && s.createdAt < s.idleExpiresAt &&
    s.idleExpiresAt ≤ s.absoluteExpiresAt &&
    if s.mode = .oidc then s.accessToken.isSome && s.accessExpiresAt.isSome
    else s.accessToken.isNone && s.refreshToken.isNone && s.idToken.isNone &&
      s.accessExpiresAt.isNone

def decodeSession (raw : List Char) : Option BrowserSession := do
  let record ← parse raw
  let keys := record.map Prod.fst
  guard ((SessionKey.required.all fun key => keys.contains key.name) &&
    (keys.all fun name => SessionKey.all.any fun key => key.name == name) &&
    record.get SessionKey.version.name == some (.number 1))
  let mode ← decodeMode (record.get SessionKey.mode.name)
  let subject ← (record.get SessionKey.subject.name).bind
    (string fun s => isTrimmed s && matchesText s)
  let displayName ← optionalText 160 (record.get SessionKey.displayName.name)
  let accessToken ← optionalToken (record.get SessionKey.accessToken.name)
  let refreshToken ← optionalToken (record.get SessionKey.refreshToken.name)
  let idToken ← optionalToken (record.get SessionKey.idToken.name)
  let accessExpiresAt ← optionally (fun value => safeTime (some value))
    (record.get SessionKey.accessExpiresAt.name)
  let csrfToken ← (record.get SessionKey.csrfToken.name).bind (string isOpaque)
  let createdAt ← safeTime (record.get SessionKey.createdAt.name)
  let absoluteExpiresAt ← safeTime (record.get SessionKey.absoluteExpiresAt.name)
  let idleExpiresAt ← safeTime (record.get SessionKey.idleExpiresAt.name)
  let session : BrowserSession :=
    { mode, subject, displayName, accessToken, refreshToken, idToken, accessExpiresAt, csrfToken
      createdAt, absoluteExpiresAt, idleExpiresAt }
  guard (consistent session)
  pure session

/-! ## Encryption -/

/-- AES-256-GCM: key, nonce, associated data and text; enciphering gives ciphertext and tag. -/
structure AesGcm where
  encipher : List UInt8 → List UInt8 → List UInt8 → List UInt8 → List UInt8 × List UInt8
  decipher : List UInt8 → List UInt8 → List UInt8 → List UInt8 → List UInt8 → Option (List UInt8)

def maximumPlaintextBytes : Nat := 128 * 1024

def maximumEnvelopeCharacters : Nat := 256 * 1024

/-- The identifier of a key. -/
def keyId (sha256 : List UInt8 → List UInt8) (key : List UInt8) : List Char :=
  (Base64.encode (sha256 key)).take 16

/-- What the constructor of `RecordCipher` checks. -/
structure KeyRing (sha256 : List UInt8 → List UInt8) where
  active : List UInt8
  previous : List (List UInt8)
  count : previous.length < 4
  length : ∀ key ∈ active :: previous, key.length = 32
  distinct : ((active :: previous).map (keyId sha256)).Nodup

def KeyRing.keys {sha256 : List UInt8 → List UInt8} (ring : KeyRing sha256) : List (List UInt8) :=
  ring.active :: ring.previous

/-- UTF-8 of a well-formed text. -/
def utf8 (text : List Char) : List UInt8 := text.flatMap String.utf8EncodeChar

/-- A text from its UTF-8; the store's texts are well formed. -/
def fromUtf8 (bytes : List UInt8) : Option (List Char) :=
  bytes.toByteArray.utf8Decode?.map Array.toList

inductive StoreError
  | invalidKey
  | tooLarge
  | invalidNonce
  | invalidTtl
  deriving DecidableEq, Repr

variable {sha256 : List UInt8 → List UInt8}

def encrypt (gcm : AesGcm) (ring : KeyRing sha256) (iv : List UInt8) (plaintext : List Char)
    (associatedData : List Char) : Except StoreError (List Char) :=
  let source := utf8 plaintext
  if maximumPlaintextBytes < source.length then .error .tooLarge
  else if iv.length ≠ 12 then .error .invalidNonce
  else
    let (ciphertext, tag) := gcm.encipher ring.active iv (utf8 associatedData) source
    .ok (['.'].intercalate ["v1".toList, keyId sha256 ring.active, Base64.encode iv,
      Base64.encode ciphertext, Base64.encode tag])

/-- `envelopePartPattern`. -/
def isEnvelopePart (part : List Char) : Bool := !part.isEmpty && part.all Base64.isDigit

def decrypt (gcm : AesGcm) (ring : KeyRing sha256) (envelope : List Char)
    (associatedData : List Char) : Option (List Char) :=
  if maximumEnvelopeCharacters < envelope.length then none
  else
    match envelope.splitOn '.' with
    | [version, id, iv, ciphertext, tag] =>
      if version = "v1".toList ∧ [id, iv, ciphertext, tag].all isEnvelopePart then
        match ring.keys.find? fun key => keyId sha256 key == id with
        | none => none
        | some key =>
          let ivBytes := Base64.decode iv
          let ciphertextBytes := Base64.decode ciphertext
          let tagBytes := Base64.decode tag
          if ivBytes.length ≠ 12 ∨ tagBytes.length ≠ 16 ∨
              maximumPlaintextBytes < ciphertextBytes.length then none
          else
            (gcm.decipher key ivBytes (utf8 associatedData) ciphertextBytes tagBytes).bind fromUtf8
      else none
    | _ => none

/-! ## Redis -/

/-- A Redis database: values with the time they expire at. -/
abbrev Redis := List Char → Option (List Char × Nat)

def Redis.get (redis : Redis) (now : Nat) (key : List Char) : Option (List Char) :=
  (redis key).bind fun entry => if now < entry.2 then some entry.1 else none

def Redis.set (redis : Redis) (now : Nat) (key value : List Char) (px : Nat) : Redis :=
  Function.update redis key (some (value, now + px))

def Redis.del (redis : Redis) (key : List Char) : Redis := Function.update redis key none

/-- The commands of `RedisClientLike`; `delIf` is the script that releases a lock. -/
inductive Command
  | set (key value : List Char) (px : Nat) (nx : Bool)
  | get (key : List Char)
  | getDel (key : List Char)
  | del (key : List Char)
  | delIf (key value : List Char)
  deriving DecidableEq, Repr

inductive Reply
  | ok
  | nil
  | value (value : List Char)
  | integer (value : Nat)
  deriving DecidableEq, Repr

def Reply.ofValue : Option (List Char) → Reply
  | none => .nil
  | some text => .value text

/-- Redis executes a command at a time of its clock. -/
def Command.exec (redis : Redis) (now : Nat) : Command → Reply × Redis
  | .set key value px nx =>
    if nx && (redis.get now key).isSome then (.nil, redis) else (.ok, redis.set now key value px)
  | .get key => (.ofValue (redis.get now key), redis)
  | .getDel key => (.ofValue (redis.get now key), redis.del key)
  | .del key => (.integer (if (redis.get now key).isSome then 1 else 0), redis.del key)
  | .delIf key value =>
    if redis.get now key = some value then (.integer 1, redis.del key) else (.integer 0, redis)

/-! ## The store -/

inductive Kind
  | lock
  | login
  | session
  deriving DecidableEq, Repr

def Kind.segment : Kind → List Char
  | .lock => ":lock:".toList
  | .login => ":login:".toList
  | .session => ":session:".toList

/-- The characters of a text that is all ASCII. -/
def asciiChars (s : Text) : List Char := s.map fun u => Char.ofNat u.val

/-- `key`. -/
def storeKey (namePrefix : List Char) (kind : Kind) (id : Text) : Except StoreError (List Char) :=
  if isOpaque id then .ok (namePrefix ++ kind.segment ++ asciiChars id) else .error .invalidKey

/-- `ttl`. -/
def checkTtl (ttlMs : Nat) : Except StoreError Nat :=
  if ttlMs = 0 ∨ 86400000 < ttlMs then .error .invalidTtl else .ok ttlMs

/-- The command that puts a record in its envelope. -/
def putCommand (gcm : AesGcm) (ring : KeyRing sha256) (key : List Char) (iv : List UInt8)
    (json : List Char) (ttlMs : Nat) (nx : Bool) : Except StoreError Command := do
  let envelope ← encrypt gcm ring iv json key
  let px ← checkTtl ttlMs
  pure (.set key envelope px nx)

/-- `saveSession` at a time of the server's clock. -/
def saveSession (gcm : AesGcm) (ring : KeyRing sha256) (namePrefix : List Char) (redis : Redis)
    (now : Nat) (iv : List UInt8) (id : Text) (record : BrowserSession) (ttlMs : Nat) :
    Except StoreError Redis := do
  let key ← storeKey namePrefix .session id
  let command ← putCommand gcm ring key iv record.json ttlMs false
  pure (command.exec redis now).2

/-- What `getSession` makes of a reply. -/
def openSession (gcm : AesGcm) (ring : KeyRing sha256) (key : List Char) : Reply → Option BrowserSession
  | .value raw => (decrypt gcm ring raw key).bind decodeSession
  | _ => none

/-- `getSession` at a time of the server's clock. -/
def getSession (gcm : AesGcm) (ring : KeyRing sha256) (namePrefix : List Char) (redis : Redis)
    (now : Nat) (id : Text) : Except StoreError (Option BrowserSession) := do
  let key ← storeKey namePrefix .session id
  pure (openSession gcm ring key ((Command.get key).exec redis now).1)

end CorpusKit.Web
