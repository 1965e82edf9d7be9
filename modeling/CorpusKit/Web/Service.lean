import CorpusKit.Library.Rules
import CorpusKit.Web.Transactions

/-! # The authentication service

`AuthService` over `RedisSessionStore`: every call of the service by any number
of web processes, with one operation for each command the store is sent, each
request to the provider, each reading of the clock and each random value. A
command that is not answered in time may still be executed later. -/

namespace CorpusKit.Web

open Transaction Program Interleaving Script

/-- Where the service runs, and its cryptography: AES-GCM, SHA-256 and the HMAC of a payload. -/
structure Deployment where
  config : WebAuthConfig
  commandTimeoutMs : Nat
  namePrefix : List Char
  gcm : AesGcm
  sha256 : List UInt8 → List UInt8
  ring : KeyRing sha256
  hmac : Text → Text

/-- An `AuthError`, or any other exception. -/
inductive Failure
  | auth (code : String) (status : Nat)
  | other
  deriving DecidableEq, Repr

def unavailable : Failure := .auth "authentication_unavailable" 503

def invalidCallback : Failure := .auth "invalid_authentication_callback" 400

def authenticationRequired : Failure := .auth "authentication_required" 401

/-- What the next operations find: the clock, random bytes, whether Redis answers in
time, and what the provider answers. -/
structure Env where
  clock : TimeValue
  bytes : Opaque
  nonce : { iv : List UInt8 // iv.length = 12 }
  answers : Bool
  authorizationUrl : Option Text
  response : Option TokenResponse

structure Shared where
  redis : Redis
  /-- The clock of the Redis server. -/
  server : Nat
  /-- The commands Redis has executed, with its replies, latest first. -/
  journal : List (Command × Reply)
  /-- Commands whose callers have given up. -/
  late : List Command
  /-- The payloads signed so far. -/
  signed : List Text
  env : Env

abbrev WebTx := Tx Shared Failure

/-- A callback with its query parameters. -/
structure CallbackUrl where
  parameters : List (Text × Text)
  deriving DecidableEq, Repr

/-- `searchParams.getAll("state")`. -/
def CallbackUrl.states (url : CallbackUrl) : List Text :=
  (url.parameters.filter fun parameter => parameter.1 == text "state").map Prod.snd

inductive Op : Type → Type
  | clock : Op TimeValue
  | random : Op Opaque
  | nonce : Op { iv : List UInt8 // iv.length = 12 }
  | sign (payload : Text) : Op Text
  | verify (payload signature : Text) : Op Bool
  /-- A command with its reply, unless the caller gives up. -/
  | send (command : Command) : Op (Option Reply)
  | authorizationUrl (state nonce codeVerifier : Text) : Op Text
  | exchange (callbackUrl : CallbackUrl) (state nonce codeVerifier : Text) : Op OidcTokenSet
  | refresh (refreshToken : Text) : Op OidcRefreshSet
  | revoke (token : Text) : Op Unit
  /-- Redis executes a command nobody waits for any more. -/
  | deliver (index : Nat) : Op Unit

/-- Redis executes a command. -/
def Shared.execute (w : Shared) (command : Command) : Shared :=
  let executed := command.exec w.redis w.server
  { w with redis := executed.2, journal := (command, executed.1) :: w.journal }

def Op.exec (D : Deployment) {β : Type} : Op β → WebTx β
  | .clock => do
    let w ← get
    pure w.env.clock
  | .random => do
    let w ← get
    pure w.env.bytes
  | .nonce => do
    let w ← get
    pure w.env.nonce
  | .sign payload => do
    modify fun w => { w with signed := payload :: w.signed }
    pure (D.hmac payload)
  | .verify payload signature => pure (signature == D.hmac payload)
  | .send command => do
    let w ← get
    if w.env.answers then do
      set (w.execute command)
      pure (some (command.exec w.redis w.server).1)
    else do
      set { w with late := w.late ++ [command] }
      pure none
  | .authorizationUrl _ _ _ => do
    let w ← get
    found w.env.authorizationUrl .other
  | .exchange _ _ _ _ => do
    let w ← get
    found (w.env.response.bind (Web.exchange D.config w.env.clock)) .other
  | .refresh refreshToken => do
    let w ← get
    require (validToken refreshToken = true) .other
    found (w.env.response.bind (Web.refresh D.config w.env.clock)) .other
  | .revoke token => require (validToken token = true) .other
  | .deliver index => do
    let w ← get
    match w.late[index]? with
    | some command => set { w.execute command with late := w.late.eraseIdx index }
    | none => pure ()

/-! ## What an operation does -/

/-- The command an operation sends. -/
def Op.command {β : Type} : Op β → Option Command
  | .send command => some command
  | _ => none

/-- The payload an operation signs. -/
def Op.payload {β : Type} : Op β → Option Text
  | .sign payload => some payload
  | _ => none

/-- The payload and the signature an operation compares. -/
def Op.verification {β : Type} : Op β → Option (Text × Text)
  | .verify payload signature => some (payload, signature)
  | _ => none

theorem send_returns {D : Deployment} {w w' : Shared} {command : Command} {reply : Option Reply}
    (h : Returns ((Op.send command).exec D) w reply w') :
    (w.env.answers = true ∧ reply = some (command.exec w.redis w.server).1 ∧ w' = w.execute command) ∨
      (w.env.answers = false ∧ reply = none ∧ w' = { w with late := w.late ++ [command] }) := by
  obtain ⟨a, s, hget, h⟩ := h.bind
  obtain ⟨rfl, rfl⟩ := hget.get
  obtain ⟨hanswers, h⟩ | ⟨hanswers, h⟩ := h.ite
  · obtain ⟨u, s, hset, h⟩ := h.bind
    obtain rfl := hset.set
    obtain ⟨rfl, rfl⟩ := h.pure
    exact .inl ⟨hanswers, rfl, rfl⟩
  · obtain ⟨u, s, hset, h⟩ := h.bind
    obtain rfl := hset.set
    obtain ⟨rfl, rfl⟩ := h.pure
    exact .inr ⟨by simpa using hanswers, rfl, rfl⟩

/-- The only ways to move the shared state: a signature, a command that is executed or
left over, and a late command that is executed after all. -/
theorem Op.effect {D : Deployment} {w w' : Shared} {β : Type} {o : Op β} {b : β}
    (h : Returns (o.exec D) w b w') :
    w' = w ∨ (∃ payload, o.payload = some payload ∧ w' = { w with signed := payload :: w.signed }) ∨
      (∃ command, o.command = some command ∧
        (w' = w.execute command ∨ w' = { w with late := w.late ++ [command] })) ∨
      ∃ index command, w.late[index]? = some command ∧
        w' = { w.execute command with late := w.late.eraseIdx index } := by
  cases o with
  | clock | random | nonce =>
    obtain ⟨a, s, hget, h⟩ := h.bind
    obtain ⟨rfl, rfl⟩ := hget.get
    exact .inl h.pure.2.symm
  | sign payload =>
    obtain ⟨a, s, hmodify, h⟩ := h.bind
    obtain rfl := hmodify.modify
    exact .inr (.inl ⟨payload, rfl, h.pure.2.symm⟩)
  | verify payload signature => exact .inl (h.pure.2.symm)
  | send command =>
    obtain ⟨-, -, h⟩ | ⟨-, -, h⟩ := send_returns h
    · exact .inr (.inr (.inl ⟨command, rfl, .inl h⟩))
    · exact .inr (.inr (.inl ⟨command, rfl, .inr h⟩))
  | authorizationUrl | exchange =>
    obtain ⟨a, s, hget, h⟩ := h.bind
    obtain ⟨rfl, rfl⟩ := hget.get
    exact .inl h.found.2.symm
  | refresh =>
    obtain ⟨a, s, hget, h⟩ := h.bind
    obtain ⟨rfl, rfl⟩ := hget.get
    obtain ⟨u, s, hrequire, h⟩ := h.bind
    obtain ⟨-, rfl⟩ := hrequire.require
    exact .inl h.found.2.symm
  | revoke token => exact .inl (h.require.2.symm)
  | deliver index =>
    obtain ⟨a, s, hget, h⟩ := h.bind
    obtain ⟨rfl, rfl⟩ := hget.get
    split at h
    · next command hcommand =>
      obtain rfl := h.set
      exact .inr (.inr (.inr ⟨index, command, hcommand, rfl⟩))
    · exact .inl h.pure.2.symm

abbrev Service := Prog Op Failure

/-! ## The store -/

/-- A check of the store that throws. -/
def lift {α : Type} : Except StoreError α → Service α
  | .ok a => .ret a
  | .error _ => .raise .other

def send (command : Command) : Service Reply := do
  let reply ← Prog.perform (.send command)
  Prog.found reply .other

/-- The bytes of a fresh identifier, token or verifier. -/
def randomOpaque : Service Text := do
  let bytes ← Prog.perform .random
  pure bytes.text

section

variable (D : Deployment)

def createTransaction (record : LoginTransaction) (ttlMs : Nat) : Service Bool := do
  let key ← lift (storeKey D.namePrefix .login record.id)
  let iv ← Prog.perform .nonce
  let command ← lift (putCommand D.gcm D.ring key iv record.json ttlMs true)
  let reply ← send command
  pure (reply == .ok)

/-- What `consumeTransaction` makes of a reply. -/
def openTransaction (key : List Char) : Reply → Option LoginTransaction
  | .value raw => (decrypt D.gcm D.ring raw key).bind decodeTransaction
  | _ => none

def consumeTransaction (id : Text) : Service (Option LoginTransaction) := do
  let key ← lift (storeKey D.namePrefix .login id)
  let reply ← send (.getDel key)
  pure (openTransaction D key reply)

def readSession (id : Text) : Service (Option BrowserSession) := do
  let key ← lift (storeKey D.namePrefix .session id)
  let reply ← send (.get key)
  pure (openSession D.gcm D.ring key reply)

def writeSession (id : Text) (record : BrowserSession) (ttlMs : Nat) : Service Unit := do
  let key ← lift (storeKey D.namePrefix .session id)
  let iv ← Prog.perform .nonce
  let command ← lift (putCommand D.gcm D.ring key iv record.json ttlMs false)
  let reply ← send command
  Prog.require (reply = .ok) .other

def deleteSession (id : Text) : Service Unit := do
  let key ← lift (storeKey D.namePrefix .session id)
  let _ ← send (.del key)

/-- `try … finally`. -/
def ensure {α : Type} (body : Service α) (cleanup : Service Unit) : Service α := do
  let answer ← body.handle fun e => do
    cleanup
    Prog.raise e
  cleanup
  pure answer

/-- The attempts of `withSessionLock`, as many as its caller lives to make. -/
def acquire (key token : List Char) (deadline : Nat) : Nat → Service Bool
  | 0 => pure false
  | attempts + 1 => do
    let now ← Prog.perform .clock
    if deadline ≤ now.1 then pure false
    else do
      let reply ← send (.set key token 60000 true)
      if reply = .ok then pure true else acquire key token deadline attempts

def withSessionLock {α : Type} (attempts : Nat) (id : Text) (operation : Service α) :
    Service α := do
  let key ← lift (storeKey D.namePrefix .lock id)
  let token ← randomOpaque
  let now ← Prog.perform .clock
  let acquired ← acquire key (asciiChars token) (now + D.commandTimeoutMs) attempts
  Prog.require (acquired = true) .other
  ensure operation do
    let _ ← send (.delIf key (asciiChars token))

/-! ## States -/

def sign (id : Text) (issuedAt : Nat) : Service Text := do
  Prog.require (isOpaque id = true) invalidCallback
  let signature ← Prog.perform (.sign (statePayload id issuedAt))
  pure (joinState (statePayload id issuedAt) signature)

/-- `verify` at a time in seconds. -/
def verify (value : Text) (now : Nat) : Service (Text × Int) := do
  let (payload, signature) ← Prog.found (splitState value) invalidCallback
  let valid ← Prog.perform (.verify payload signature)
  Prog.require (valid = true) invalidCallback
  let (id, issuedAt) ← Prog.found (decodeState payload) invalidCallback
  Prog.require (issuedAt ≤ now + 30 ∧ now - D.config.transactionSeconds ≤ issuedAt) invalidCallback
  pure (id, issuedAt)

/-! ## Logins -/

/-- `storeOperation`. -/
def storeOperation {α : Type} (operation : Service α) : Service α :=
  operation.handle fun
    | .auth code status => Prog.raise (.auth code status)
    | .other => Prog.raise unavailable

/-- `maximumAge`. -/
def currentAge (session : BrowserSession) : Service Nat := do
  let now ← Prog.perform .clock
  pure (maximumAge session now)

def save (id : Text) (session : BrowserSession) : Service Unit := do
  let age ← currentAge session
  storeOperation (writeSession D id session (age * 1000))

structure LoginStart where
  authorizationUrl : Text
  correlationId : Text
  maximumAge : Nat
  deriving DecidableEq, Repr

/-- The attempts of `beginLogin` to create a transaction. -/
def createCandidate (returnPath : Text) (createdAt : Nat) : Nat → Service (Option LoginTransaction)
  | 0 => pure none
  | attempts + 1 => do
    let id ← randomOpaque
    let codeVerifier ← randomOpaque
    let nonce ← randomOpaque
    let candidate : LoginTransaction :=
      { id, codeVerifier, nonce, returnPath, createdAt
        expiresAt := createdAt + D.config.transactionSeconds * 1000 }
    let created ← storeOperation
      (createTransaction D candidate (D.config.transactionSeconds * 1000))
    if created then pure (some candidate) else createCandidate returnPath createdAt attempts

def beginLogin (returnPath : Text) : Service LoginStart := do
  Prog.require (D.config.mode = .oidc) unavailable
  Prog.require (returnPath ∈ D.config.allowedReturnPaths) (.auth "invalid_return_path" 400)
  let createdAt ← Prog.perform .clock
  let created ← createCandidate D returnPath createdAt 3
  let transaction ← Prog.found created unavailable
  let state ← sign transaction.id (createdAt / 1000)
  let authorizationUrl ← Prog.handle
    (Prog.perform (.authorizationUrl state transaction.nonce transaction.codeVerifier))
    fun _ => Prog.raise unavailable
  pure { authorizationUrl, correlationId := transaction.id
         maximumAge := D.config.transactionSeconds }

structure LoginCompletion where
  sessionId : Text
  returnPath : Text
  maximumAge : Nat
  deriving DecidableEq, Repr

/-- The identifier of the new session: at most three more tries where it is the previous one. -/
def freshSessionId (previousSessionId : Option Text) : Nat → Service Text
  | 0 => randomOpaque
  | attempts + 1 => do
    let id ← randomOpaque
    if previousSessionId = some id then freshSessionId previousSessionId attempts else pure id

/-- The session that was there before is deleted. -/
def dropPrevious (attempts : Nat) : Option Text → Service Unit
  | some previous => storeOperation (withSessionLock D attempts previous (deleteSession D previous))
  | none => pure ()

/-- `completeLogin`; an empty cookie value counts as none. -/
def completeLogin (callbackUrl : CallbackUrl) (correlationId previousSessionId : Option Text)
    (attempts : Nat) : Service LoginCompletion := do
  Prog.require (D.config.mode = .oidc) unavailable
  match callbackUrl.states, correlationId with
  | [state], some correlation => do
    Prog.require (correlation ≠ []) invalidCallback
    let verifiedAt ← Prog.perform .clock
    let (id, _) ← verify D state (verifiedAt / 1000)
    Prog.require (id = correlation) invalidCallback
    let consumed ← storeOperation (consumeTransaction D id)
    let currentTime ← Prog.perform .clock
    let transaction ← Prog.found consumed invalidCallback
    Prog.require (currentTime.1 < transaction.expiresAt ∧
      transaction.createdAt ≤ currentTime + 30000 ∧ transaction.id = id ∧
      transaction.returnPath ∈ D.config.allowedReturnPaths) invalidCallback
    let tokens ← Prog.handle
      (Prog.perform (.exchange callbackUrl state transaction.nonce transaction.codeVerifier))
      fun _ => Prog.raise invalidCallback
    let csrfToken ← Prog.perform .random
    let session := loginSession D.config tokens csrfToken currentTime
    let previous := previousSessionId.filter fun id => !id.isEmpty
    let sessionId ← freshSessionId previous 3
    Prog.require (previous ≠ some sessionId) unavailable
    dropPrevious D attempts previous
    save D sessionId session
    let age ← currentAge session
    pure { sessionId, returnPath := transaction.returnPath, maximumAge := age }
  | _, _ => Prog.raise invalidCallback

/-! ## Sessions -/

structure ResolvedSession where
  id : Text
  value : BrowserSession
  maximumAge : Nat
  deriving DecidableEq, Repr

/-- The part of `refreshLocked` that is tried. -/
def refreshSession (id : Text) (session : BrowserSession) (refreshToken : Text) :
    Service BrowserSession := do
  let refreshed ← Prog.perform (.refresh refreshToken)
  Prog.require (∀ subject ∈ refreshed.subject, subject = session.subject) .other
  let next := refreshedSession session refreshed
  let age ← currentAge next
  writeSession D id next (age * 1000)
  pure next

def refreshLocked (id : Text) (session : BrowserSession) : Service BrowserSession :=
  match session.refreshToken with
  | some refreshToken =>
    if D.config.mode = .oidc then
      (refreshSession D id session refreshToken).handle fun e => do
        (deleteSession D id).handle fun _ => pure ()
        match e with
        | .auth code status => Prog.raise (.auth code status)
        | .other => Prog.raise unavailable
    else do
      deleteSession D id
      Prog.raise authenticationRequired
  | none => do
    deleteSession D id
    Prog.raise authenticationRequired

/-- Whether the access token is about to expire. -/
def refreshDue (session : BrowserSession) (currentTime : Nat) : Bool :=
  session.mode == .oidc &&
    session.accessExpiresAt.getD 0 ≤ currentTime + D.config.refreshBeforeSeconds * 1000

/-- What `resolveSession` does under the lock. -/
def resolveLocked (id : Text) : Service (Option ResolvedSession) := do
  match ← readSession D id with
  | none => pure none
  | some session =>
    if session.mode ≠ D.config.mode then pure none
    else do
      let currentTime ← Prog.perform .clock
      if session.absoluteExpiresAt ≤ currentTime ∨ session.idleExpiresAt ≤ currentTime then do
        deleteSession D id
        pure none
      else do
        let session ← if refreshDue D session currentTime then refreshLocked D id session
          else pure session
        let session := usedSession D.config session currentTime
        let age ← currentAge session
        writeSession D id session (age * 1000)
        let age ← currentAge session
        pure (some { id, value := session, maximumAge := age })

def resolveSession (id : Option Text) (attempts : Nat) : Service (Option ResolvedSession) :=
  match id.filter fun id => !id.isEmpty with
  | none => pure none
  | some id => storeOperation (withSessionLock D attempts id (resolveLocked D id))

/-- What `logout` does under the lock. -/
def logoutLocked (id : Text) (csrfToken : Option Text) : Service BrowserSession := do
  let current ← readSession D id
  let session ← Prog.found current authenticationRequired
  Prog.require (csrfToken = some session.csrfToken) (.auth "csrf_validation_failed" 403)
  deleteSession D id
  pure session

/-- A revocation whose outcome does not matter. -/
def revokeToken : Option Text → Service Unit
  | some token => Prog.handle (Prog.perform (.revoke token)) fun _ => pure ()
  | none => pure ()

def logout (id csrfToken : Option Text) (attempts : Nat) : Service Unit := do
  let id ← Prog.found (id.filter fun id => !id.isEmpty) authenticationRequired
  let session ← storeOperation (withSessionLock D attempts id (logoutLocked D id csrfToken))
  if D.config.mode = .oidc ∧ session.mode = .oidc then do
    revokeToken session.refreshToken
    revokeToken session.accessToken
  else pure ()

end

/-! ## Calls -/

inductive Call
  | beginLogin (returnPath : Text)
  | completeLogin (callbackUrl : CallbackUrl) (correlationId previousSessionId : Option Text)
      (attempts : Nat)
  | resolveSession (id : Option Text) (attempts : Nat)
  | logout (id csrfToken : Option Text) (attempts : Nat)
  /-- The store's own reading of a session. -/
  | getSession (id : Text)
  /-- Redis gets to a command nobody waits for any more. -/
  | deliver (index : Nat)

def Call.Value : Call → Type
  | .beginLogin _ => LoginStart
  | .completeLogin .. => LoginCompletion
  | .resolveSession .. => Option ResolvedSession
  | .logout .. => Unit
  | .getSession _ => Option BrowserSession
  | .deliver _ => Unit

def Call.prog (D : Deployment) : (c : Call) → Service c.Value
  | .beginLogin returnPath => Web.beginLogin D returnPath
  | .completeLogin callbackUrl correlationId previousSessionId attempts =>
    Web.completeLogin D callbackUrl correlationId previousSessionId attempts
  | .resolveSession id attempts => Web.resolveSession D id attempts
  | .logout id csrfToken attempts => Web.logout D id csrfToken attempts
  | .getSession id => readSession D id
  | .deliver index => Prog.perform (.deliver index)

/-- Time passes on the server, and what the next operations find changes. -/
inductive Tick
  | pass (ms : Nat)
  | env (next : Env)

def Tick.apply : Tick → Shared → Shared
  | .pass ms, w => { w with server := w.server + ms }
  | .env next, w => { w with env := next }

/-- Any number of calls by any number of web processes of one deployment. -/
abbrev serving (D : Deployment) : Machine where
  World := Shared
  Error := Failure
  Op := Op
  exec := fun o => o.exec D
  Call := Call
  Value := Call.Value
  prog := Call.prog D
  Tick := Tick
  tick := Tick.apply

def Shared.initial (env : Env) : Shared where
  redis := fun _ => none
  server := 0
  journal := []
  late := []
  signed := []
  env

end CorpusKit.Web
