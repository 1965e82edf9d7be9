import CorpusKit.Properties.SessionRecords
import CorpusKit.Web.Service

/-! # Login transactions are used once, and only by their initiator

Only the service puts login transactions in the store and signs states, each for a
transaction it has created, and a transaction leaves the store with the first
callback that asks for it. -/

namespace CorpusKit.Web

open Transaction Program Interleaving Script

/-! ## States and records are read back -/

theorem string_eq (check : Text → Bool) {s t : Text} (h : string check (.str s) = some t) : s = t := by
  rw [string] at h
  split at h
  · exact Option.some.inj h
  · cases h

theorem safeTime_eq {n m : Nat} (hn : n < 2 ^ 53) (h : safeTime (some (.number n)) = some m) : n = m := by
  rw [safeTime_natCast hn] at h
  exact Option.some.inj h

theorem transaction_names : transactionKeys.Nodup := by decide +kernel

/-- What the decoder accepts of a written transaction is the transaction. -/
theorem decodeTransaction_json {tx tx' : LoginTransaction} (hcreated : tx.createdAt < 2 ^ 53)
    (hexpires : tx.expiresAt < 2 ^ 53) (h : decodeTransaction tx.json = some tx') : tx' = tx := by
  have hnames : (tx.fields.map Prod.fst).Nodup := transaction_names
  have hsafe : ∀ field ∈ tx.fields, field.2.Safe := by
    intro field hfield
    simp only [LoginTransaction.fields, List.mem_cons, List.not_mem_nil, or_false] at hfield
    rcases hfield with rfl | rfl | rfl | rfl | rfl | rfl
    · trivial
    · trivial
    · trivial
    · trivial
    · exact hcreated
    · exact hexpires
  have hparse : parse (stringify tx.fields) = some (tx.fields.map fun f => (f.1, f.2.scalar)) :=
    parse_stringify (List.cons_ne_nil _ _) hsafe
  have hget {key : Text} (cell : Cell) (hmem : (key, cell) ∈ tx.fields) :=
    Record.get_written hnames hmem
  unfold decodeTransaction at h
  obtain ⟨record, hrecord, h⟩ := Option.bind_eq_some_iff.mp h
  rw [LoginTransaction.json, hparse] at hrecord
  obtain rfl := Option.some.inj hrecord
  obtain ⟨⟨⟩, -, h⟩ := Option.bind_eq_some_iff.mp h
  obtain ⟨id, hid, h⟩ := Option.bind_eq_some_iff.mp h
  obtain ⟨codeVerifier, hverifier, h⟩ := Option.bind_eq_some_iff.mp h
  obtain ⟨nonce, hnonce, h⟩ := Option.bind_eq_some_iff.mp h
  obtain ⟨returnPath, hpath, h⟩ := Option.bind_eq_some_iff.mp h
  obtain ⟨createdAt, hcreatedAt, h⟩ := Option.bind_eq_some_iff.mp h
  obtain ⟨expiresAt, hexpiresAt, h⟩ := Option.bind_eq_some_iff.mp h
  obtain ⟨⟨⟩, -, h⟩ := Option.bind_eq_some_iff.mp h
  obtain rfl := Option.some.inj h
  rw [hget (.text tx.id) (by simp [LoginTransaction.fields])] at hid
  rw [hget (.text tx.codeVerifier) (by simp [LoginTransaction.fields])] at hverifier
  rw [hget (.text tx.nonce) (by simp [LoginTransaction.fields])] at hnonce
  rw [hget (.text tx.returnPath) (by simp [LoginTransaction.fields])] at hpath
  rw [hget (.integer tx.createdAt) (by simp [LoginTransaction.fields])] at hcreatedAt
  rw [hget (.integer tx.expiresAt) (by simp [LoginTransaction.fields])] at hexpiresAt
  obtain rfl := string_eq isOpaque hid
  obtain rfl := string_eq isOpaque hverifier
  obtain rfl := string_eq isOpaque hnonce
  obtain rfl := string_eq (fun s => s.length ≤ 128) hpath
  obtain rfl := safeTime_eq hcreated hcreatedAt
  obtain rfl := safeTime_eq hexpires hexpiresAt
  rfl

theorem state_names : ([text "id", text "iat", text "v"] : List Text).Nodup := by decide +kernel

theorem asciiChars_encode (bytes : List UInt8) :
    asciiChars (ofChars (Base64.encode bytes)) = Base64.encode bytes :=
  asciiChars_ofChars fun c hc => Base64.toNat_lt_of_isDigit (Base64.isDigit_encode bytes c hc)

theorem safeInteger_natCast {n : Nat} (h : n < 2 ^ 53) : safeInteger (some (.number n)) = some n := by
  have hn : (n : Int) < 2 ^ 53 := by exact_mod_cast h
  rw [safeInteger, if_pos]
  · simp
  · exact ⟨Rat.den_natCast n, by simp; omega, by simpa using hn⟩

/-- A signed payload names the transaction it was signed for. -/
theorem decodeState_payload {id : Text} (hid : isOpaque id = true) {issuedAt : Nat}
    (hissued : issuedAt < 2 ^ 53) : decodeState (statePayload id issuedAt) = some (id, (issuedAt : Int)) := by
  have hnames : ((stateFields id issuedAt).map Prod.fst).Nodup := state_names
  have hsafe : ∀ field ∈ stateFields id issuedAt, field.2.Safe := by
    intro field hfield
    simp only [stateFields, List.mem_cons, List.not_mem_nil, or_false] at hfield
    rcases hfield with rfl | rfl | rfl
    · trivial
    · exact hissued
    · show 1 < 2 ^ 53
      decide
  have hparse : parse (stringify (stateFields id issuedAt)) =
      some ((stateFields id issuedAt).map fun f => (f.1, f.2.scalar)) :=
    parse_stringify (List.cons_ne_nil _ _) hsafe
  have hget {key : Text} (cell : Cell) (hmem : (key, cell) ∈ stateFields id issuedAt) :=
    Record.get_written hnames hmem
  have hraw : fromUtf8 (Base64.decode (asciiChars (statePayload id issuedAt))) =
      some (stringify (stateFields id issuedAt)) := by
    rw [statePayload, asciiChars_encode, Base64.decode_encode, fromUtf8_utf8]
  have hkeys : guard (exactKeys ((stateFields id issuedAt).map fun f => (f.1, f.2.scalar))
      [text "iat", text "id", text "v"] = true) = some () := by
    have h : exactKeys ((stateFields id issuedAt).map fun f => (f.1, f.2.scalar))
        [text "iat", text "id", text "v"] = true := by
      simp [exactKeys, stateFields]
    rw [h]
    rfl
  have hversion : guard (Record.get ((stateFields id issuedAt).map fun f => (f.1, f.2.scalar))
      (text "v") = some (.number 1)) = some () := by
    have h : Record.get ((stateFields id issuedAt).map fun f => (f.1, f.2.scalar)) (text "v") =
        some (.number 1) := by
      rw [hget (.integer 1) (by simp [stateFields])]
      show some (Scalar.number ((1 : Nat) : ℚ)) = _
      rw [Nat.cast_one]
    exact if_pos h
  have hname : (Record.get ((stateFields id issuedAt).map fun f => (f.1, f.2.scalar))
      (text "id")).bind (string isOpaque) = some id := by
    rw [hget (.text id) (by simp [stateFields])]
    exact string_some isOpaque hid
  have htime : safeInteger (Record.get ((stateFields id issuedAt).map fun f => (f.1, f.2.scalar))
      (text "iat")) = some (issuedAt : Int) := by
    rw [hget (.integer issuedAt) (by simp [stateFields])]
    exact safeInteger_natCast hissued
  unfold decodeState
  rw [bind_of_some hraw, bind_of_some hparse, bind_of_some hkeys, bind_of_some hversion,
    bind_of_some hname, bind_of_some htime]
  rfl

theorem splitState_eq {value payload signature : Text}
    (h : splitState value = some (payload, signature)) : value = joinState payload signature := by
  have hjoin : [dot].intercalate (value.splitOn dot) = value := List.intercalate_splitOn dot
  unfold splitState at h
  split at h
  · next hparts =>
    split at h
    · obtain ⟨rfl, rfl⟩ := Prod.mk.inj (Option.some.inj h)
      rw [← hjoin, hparts]
      simp [List.intercalate, joinState]
    · cases h
  · cases h

/-! ## What the store and the signer hold -/

/-- The times of a transaction are safe integers. -/
def LoginTransaction.Timely (tx : LoginTransaction) : Prop :=
  tx.createdAt < 2 ^ 53 ∧ tx.expiresAt < 2 ^ 53

/-- The value is an envelope of the transaction under the key of its identifier. -/
def Sealed (D : Deployment) (tx : LoginTransaction) (key value : List Char) : Prop :=
  storeKey D.namePrefix .login tx.id = .ok key ∧ tx.Timely ∧
    ∃ iv, encrypt D.gcm D.ring iv tx.json key = .ok value

/-- Under a key of a transaction, commands only create that transaction. -/
def Lawful (D : Deployment) : Command → Prop
  | .set key value _ nx => ∀ id, storeKey D.namePrefix .login id = .ok key →
    nx = true ∧ ∃ tx, Sealed D tx key value
  | _ => True

/-- The store has accepted the transaction under this key, in this envelope. -/
def CreatedAs (D : Deployment) (w : Shared) (tx : LoginTransaction) (key value : List Char) : Prop :=
  Sealed D tx key value ∧ ∃ px, (Command.set key value px true, Reply.ok) ∈ w.journal

def Created (D : Deployment) (w : Shared) (tx : LoginTransaction) : Prop :=
  ∃ key value, CreatedAs D w tx key value

structure Keeps (D : Deployment) (w : Shared) : Prop where
  entries : ∀ key value expiry, w.redis key = some (value, expiry) →
    ∃ px nx, (Command.set key value px nx, Reply.ok) ∈ w.journal
  journal : ∀ e ∈ w.journal, Lawful D e.1
  late : ∀ command ∈ w.late, Lawful D command
  signed : ∀ payload ∈ w.signed, ∃ tx, Created D w tx ∧
    payload = statePayload tx.id (tx.createdAt / 1000)

/-- The journal and the signatures only grow. -/
structure Grows (w w' : Shared) : Prop where
  journal : ∀ e ∈ w.journal, e ∈ w'.journal
  signed : ∀ payload ∈ w.signed, payload ∈ w'.signed

variable {D : Deployment} {w w' : Shared}

theorem Grows.refl (w : Shared) : Grows w w := ⟨fun _ h => h, fun _ h => h⟩

theorem Grows.trans {u v w : Shared} (h : Grows u v) (h' : Grows v w) : Grows u w :=
  ⟨fun e he => h'.journal e (h.journal e he), fun p hp => h'.signed p (h.signed p hp)⟩

theorem grows_execute (w : Shared) (command : Command) : Grows w (w.execute command) :=
  ⟨fun _ he => List.mem_cons_of_mem _ he, fun _ hp => hp⟩

theorem CreatedAs.later {tx : LoginTransaction} {key value : List Char}
    (h : CreatedAs D w tx key value) (hw : Grows w w') : CreatedAs D w' tx key value := by
  obtain ⟨hsealed, px, hset⟩ := h
  exact ⟨hsealed, px, hw.journal _ hset⟩

theorem Created.later {tx : LoginTransaction} (h : Created D w tx) (hw : Grows w w') :
    Created D w' tx := by
  obtain ⟨key, value, h⟩ := h
  exact ⟨key, value, h.later hw⟩

/-- Whatever is in the database, a command put it there. -/
theorem entries_execute (h : Keeps D w) (command : Command) {key value : List Char} {expiry : Nat}
    (hentry : (w.execute command).redis key = some (value, expiry)) :
    ∃ px nx, (Command.set key value px nx, Reply.ok) ∈ (w.execute command).journal := by
  have hold : w.redis key = some (value, expiry) →
      ∃ px nx, (Command.set key value px nx, Reply.ok) ∈ (w.execute command).journal := by
    intro hredis
    obtain ⟨px, nx, hset⟩ := h.entries key value expiry hredis
    exact ⟨px, nx, List.mem_cons_of_mem _ hset⟩
  have hdel {key' : List Char} (hdel : (w.redis.del key') key = some (value, expiry)) :
      w.redis key = some (value, expiry) := by
    rw [Redis.del, Function.update_apply] at hdel
    split at hdel
    · cases hdel
    · exact hdel
  cases command with
  | set key' value' px nx =>
    have hexec : (w.execute (.set key' value' px nx)).redis =
        ((Command.set key' value' px nx).exec w.redis w.server).2 := rfl
    rw [hexec, Command.exec] at hentry
    split at hentry
    · exact hold hentry
    · next hset =>
      have hupdate : Function.update w.redis key' (some (value', w.server + px)) key =
          some (value, expiry) := hentry
      rw [Function.update_apply] at hupdate
      split at hupdate
      · next hkey =>
        obtain ⟨rfl, -⟩ := Prod.mk.inj (Option.some.inj hupdate)
        subst hkey
        refine ⟨px, nx, ?_⟩
        have hreply : ((Command.set key value' px nx).exec w.redis w.server).1 = .ok := by
          rw [Command.exec, if_neg hset]
        have hjournal : (w.execute (.set key value' px nx)).journal =
            (.set key value' px nx, ((Command.set key value' px nx).exec w.redis w.server).1) ::
              w.journal := rfl
        rw [hjournal, hreply]
        exact List.mem_cons_self
      · exact hold hupdate
  | get key' => exact hold hentry
  | getDel key' => exact hold (hdel hentry)
  | del key' => exact hold (hdel hentry)
  | delIf key' value' =>
    have hexec : (w.execute (.delIf key' value')).redis =
        ((Command.delIf key' value').exec w.redis w.server).2 := rfl
    rw [hexec, Command.exec] at hentry
    split at hentry
    · exact hold (hdel hentry)
    · exact hold hentry

theorem Keeps.execute (h : Keeps D w) {command : Command} (hlawful : Lawful D command) :
    Keeps D (w.execute command) where
  entries _ _ _ hentry := entries_execute h command hentry
  journal e he := by
    rcases List.mem_cons.mp he with rfl | he
    · exact hlawful
    · exact h.journal e he
  late := h.late
  signed payload hpayload := by
    obtain ⟨tx, htx, hpayload⟩ := h.signed payload hpayload
    exact ⟨tx, htx.later (grows_execute w command), hpayload⟩

theorem Keeps.initial (env : Env) : Keeps D (.initial env) where
  entries _ _ _ h := by cases h
  journal _ h := by cases h
  late _ h := by cases h
  signed _ h := by cases h

/-! ## The contract -/

/-- Nobody presents a signature that was not made: the HMAC is unforgeable. -/
def unforged (D : Deployment) : Guard (serving D) := fun cfg _ _ o =>
  ∀ payload signature, o.verification = some (payload, signature) →
    signature = D.hmac payload → payload ∈ cfg.world.signed

theorem Keeps.effect (h : Keeps D w) {β : Type} {o : Op β} {b : β}
    (hlawful : ∀ command, o.command = some command → Lawful D command)
    (hsigned : ∀ payload, o.payload = some payload →
      ∃ tx, Created D w tx ∧ payload = statePayload tx.id (tx.createdAt / 1000))
    (hret : Returns (o.exec D) w b w') : Keeps D w' ∧ Grows w w' := by
  obtain rfl | ⟨payload, hpayload, rfl⟩ | ⟨command, hcommand, rfl | rfl⟩ |
    ⟨index, command, hlate, rfl⟩ := Op.effect hret
  · exact ⟨h, .refl _⟩
  · have hgrows : Grows w { w with signed := payload :: w.signed } :=
      ⟨fun _ he => he, fun _ hp => List.mem_cons_of_mem _ hp⟩
    refine ⟨⟨h.entries, h.journal, h.late, fun p hp => ?_⟩, hgrows⟩
    have hmade : ∃ tx, Created D w tx ∧ p = statePayload tx.id (tx.createdAt / 1000) := by
      rcases List.mem_cons.mp hp with rfl | hp
      · exact hsigned _ hpayload
      · exact h.signed p hp
    obtain ⟨tx, htx, hp⟩ := hmade
    exact ⟨tx, htx.later hgrows, hp⟩
  · exact ⟨h.execute (hlawful command hcommand), grows_execute w command⟩
  · refine ⟨⟨h.entries, h.journal, fun c hc => ?_, h.signed⟩, ⟨fun _ he => he, fun _ hp => hp⟩⟩
    rcases List.mem_append.mp hc with hc | hc
    · exact h.late c hc
    · obtain rfl := List.mem_singleton.mp hc
      exact hlawful c hcommand
  · have hexecuted := h.execute (h.late command (List.mem_of_getElem? hlate))
    refine ⟨⟨hexecuted.entries, hexecuted.journal, fun c hc => ?_, hexecuted.signed⟩,
      ⟨fun _ he => List.mem_cons_of_mem _ he, fun _ hp => hp⟩⟩
    exact h.late c (List.mem_of_mem_eraseIdx hc)

theorem Keeps.tick (h : Keeps D w) (t : Tick) : Keeps D (t.apply w) ∧ Grows w (t.apply w) := by
  cases t with
  | pass ms => exact ⟨⟨h.entries, h.journal, h.late, h.signed⟩, ⟨fun _ he => he, fun _ hp => hp⟩⟩
  | env next => exact ⟨⟨h.entries, h.journal, h.late, h.signed⟩, ⟨fun _ he => he, fun _ hp => hp⟩⟩

/-- The service creates and signs its own transactions only. -/
def logins (D : Deployment) : Contract (serving D) where
  inv := Keeps D
  evolve := Grows
  may _ o w := ∀ payload signature, o.verification = some (payload, signature) →
    signature = D.hmac payload → payload ∈ w.signed
  must _ _ o w := (∀ command, o.command = some command → Lawful D command) ∧
    ∀ payload, o.payload = some payload →
      ∃ tx, Created D w tx ∧ payload = statePayload tx.id (tx.createdAt / 1000)
  refl := .refl
  trans := .trans
  op hi _ hmust hret := hi.effect hmust.1 hmust.2 hret
  tick hi := hi.tick _

/-! ### Programs that touch no login transaction -/

theorem Kind.take_segment (kind : Kind) (rest : List Char) :
    (kind.segment ++ rest).take 4 = kind.segment.take 4 := by
  have hlength : 4 ≤ kind.segment.length := by cases kind <;> decide +kernel
  exact List.take_append_of_le_length hlength

/-- Keys of different kinds are different. -/
theorem storeKey_kind {namePrefix key : List Char} {kind kind' : Kind} {id id' : Text}
    (h : storeKey namePrefix kind id = .ok key) (h' : storeKey namePrefix kind' id' = .ok key) :
    kind = kind' := by
  unfold storeKey at h h'
  split at h
  · split at h'
    · have hkeys := (Except.ok.inj h).trans (Except.ok.inj h').symm
      rw [List.append_assoc, List.append_assoc] at hkeys
      have htake := congrArg (List.take 4) (List.append_cancel_left hkeys)
      rw [Kind.take_segment, Kind.take_segment] at htake
      revert htake
      cases kind <;> cases kind' <;> decide +kernel
    · cases h'
  · cases h

def Harmless (D : Deployment) (β : Type) (o : Op β) : Prop :=
  (∀ key value px nx, o.command = some (.set key value px nx) →
    ∀ id, storeKey D.namePrefix .login id ≠ .ok key) ∧ o.payload = none

theorem Harmless.must {β : Type} {o : Op β} (h : Harmless D β o) (past : List (Event (serving D))) :
    (logins D).must past β o w := by
  refine ⟨fun command hcommand => ?_, fun payload hpayload => ?_⟩
  · cases command with
    | set key value px nx => exact fun id hkey => absurd hkey (h.1 key value px nx hcommand id)
    | get | getDel | del | delIf => trivial
  · rw [h.2] at hpayload
    cases hpayload

theorem harmless_of_none {β : Type} {o : Op β} (hcommand : o.command = none) (hpayload : o.payload = none) :
    Harmless D β o := by
  refine ⟨fun key value px nx h => ?_, hpayload⟩
  rw [hcommand] at h
  cases h

theorem harmless_set {kind : Kind} (hkind : kind ≠ .login) {id : Text} {key value : List Char}
    (hkey : storeKey D.namePrefix kind id = .ok key) {px : Nat} {nx : Bool} :
    Harmless D _ (.send (.set key value px nx)) := by
  refine ⟨fun key' value' px' nx' h id' hlogin => ?_, rfl⟩
  obtain ⟨rfl, -, -, -⟩ := Command.set.inj (Option.some.inj h)
  exact hkind (storeKey_kind hkey hlogin)

section

variable {α : Type} {P : (β : Type) → Op β → Prop}

theorem all_lift {x : Except StoreError α} : (lift x).All P := by
  cases x <;> trivial

theorem all_send {command : Command} (h : P _ (.send command)) : (send command).All P :=
  (Prog.All.perform h).bind fun _ => .found

theorem all_harmless {β : Type} {o : Op β} (hcommand : o.command = none) (hpayload : o.payload = none) :
    (Prog.perform o : Service β).All (Harmless D) :=
  .perform (harmless_of_none hcommand hpayload)

theorem all_randomOpaque : randomOpaque.All (Harmless D) :=
  (all_harmless rfl rfl).bind fun _ => trivial

theorem all_ensure {body : Service α} {cleanup : Service Unit} (hbody : body.All P)
    (hcleanup : cleanup.All P) : (ensure body cleanup).All P := by
  have hrethrow (e : Failure) : (cleanup >>= fun _ => Prog.raise e : Service α).All P :=
    hcleanup.bind fun _ => trivial
  exact (hbody.handle hrethrow).bind fun _ => hcleanup.bind fun _ => trivial

theorem all_storeOperation {operation : Service α} (h : operation.All P) :
    (storeOperation operation).All P :=
  h.handle fun e => by cases e <;> trivial

end

theorem all_lift_bind {α β : Type} {P : (β : Type) → Op β → Prop} {x : Except StoreError α}
    {f : α → Service β} (h : ∀ a, x = .ok a → (f a).All P) : (lift x >>= f).All P := by
  cases x with
  | error e => trivial
  | ok a => exact h a rfl

theorem harmless_read {command : Command} (h : ∀ key value px nx, command ≠ .set key value px nx) :
    Harmless D _ (.send command) :=
  ⟨fun key value px nx hcommand => absurd (Option.some.inj hcommand) (h key value px nx), rfl⟩

theorem all_deleteSession (id : Text) : (deleteSession D id).All (Harmless D) :=
  all_lift.bind fun _ => (all_send (harmless_read (by simp))).bind fun _ => trivial

theorem all_writeSession (id : Text) (record : BrowserSession) (ttlMs : Nat) :
    (writeSession D id record ttlMs).All (Harmless D) := by
  refine all_lift_bind fun key hkey => (all_harmless rfl rfl).bind fun iv => ?_
  refine all_lift_bind fun command hcommand => ?_
  obtain ⟨envelope, -, -, -, rfl⟩ := putCommand_ok.mp hcommand
  exact (all_send (harmless_set (by decide) hkey)).bind fun _ => .require

theorem all_acquire {id : Text} {key token : List Char} (hkey : storeKey D.namePrefix .lock id = .ok key)
    (deadline attempts : Nat) : (acquire key token deadline attempts).All (Harmless D) := by
  induction attempts with
  | zero => trivial
  | succ attempts ih =>
    refine (all_harmless rfl rfl).bind fun now => ?_
    split
    · trivial
    · refine (all_send (harmless_set (by decide) hkey)).bind fun reply => ?_
      split
      · trivial
      · exact ih

theorem all_withSessionLock {α : Type} {attempts : Nat} {id : Text} {operation : Service α}
    (h : operation.All (Harmless D)) : (withSessionLock D attempts id operation).All (Harmless D) := by
  refine all_lift_bind fun key hkey => all_randomOpaque.bind fun token => ?_
  refine (all_harmless rfl rfl).bind fun now => (all_acquire hkey _ _).bind fun acquired => ?_
  refine Prog.All.require.bind fun _ => all_ensure h ?_
  exact (all_send (harmless_read (by simp))).bind fun _ => trivial

theorem all_currentAge (session : BrowserSession) : (currentAge session).All (Harmless D) :=
  (all_harmless rfl rfl).bind fun _ => trivial

theorem all_save (id : Text) (session : BrowserSession) : (save D id session).All (Harmless D) :=
  (all_currentAge session).bind fun _ => all_storeOperation (all_writeSession _ _ _)

theorem all_dropPrevious (attempts : Nat) (previous : Option Text) :
    (dropPrevious D attempts previous).All (Harmless D) := by
  cases previous with
  | none => trivial
  | some previous => exact all_storeOperation (all_withSessionLock (all_deleteSession _))

theorem all_freshSessionId (previous : Option Text) (attempts : Nat) :
    (freshSessionId previous attempts).All (Harmless D) := by
  induction attempts with
  | zero => exact all_randomOpaque
  | succ attempts ih =>
    refine all_randomOpaque.bind fun id => ?_
    split
    · exact ih
    · trivial

theorem all_readSession (id : Text) : (readSession D id).All (Harmless D) :=
  all_lift.bind fun _ => (all_send (harmless_read (by simp))).bind fun _ => trivial

theorem all_refreshSession (id : Text) (session : BrowserSession) (refreshToken : Text) :
    (refreshSession D id session refreshToken).All (Harmless D) :=
  (all_harmless rfl rfl).bind fun _ => Prog.All.require.bind fun _ =>
    (all_currentAge _).bind fun _ => (all_writeSession _ _ _).bind fun _ => trivial

theorem all_refreshLocked (id : Text) (session : BrowserSession) :
    (refreshLocked D id session).All (Harmless D) := by
  unfold refreshLocked
  split
  · split
    · refine (all_refreshSession _ _ _).handle fun e => ?_
      have hdelete : ((deleteSession D id).handle fun _ => pure ()).All (Harmless D) :=
        (all_deleteSession id).handle fun _ => trivial
      refine hdelete.bind fun _ => ?_
      cases e <;> trivial
    · exact (all_deleteSession id).bind fun _ => trivial
  · exact (all_deleteSession id).bind fun _ => trivial

theorem all_resolveLocked (id : Text) : (resolveLocked D id).All (Harmless D) := by
  refine (all_readSession id).bind fun found => ?_
  cases found with
  | none => trivial
  | some session =>
    dsimp only
    split
    · trivial
    · refine (all_harmless rfl rfl).bind fun now => ?_
      split
      · exact (all_deleteSession id).bind fun _ => trivial
      · have hrest (s : BrowserSession) : (do
            let age ← currentAge (usedSession D.config s now)
            writeSession D id (usedSession D.config s now) (age * 1000)
            let age ← currentAge (usedSession D.config s now)
            pure (some { id, value := usedSession D.config s now, maximumAge := age }) :
              Service (Option ResolvedSession)).All (Harmless D) :=
          (all_currentAge _).bind fun _ => (all_writeSession _ _ _).bind fun _ =>
            (all_currentAge _).bind fun _ => trivial
        split
        · exact (all_refreshLocked id session).bind fun s => hrest s
        · exact hrest session

theorem all_resolveSession (id : Option Text) (attempts : Nat) :
    (resolveSession D id attempts).All (Harmless D) := by
  unfold resolveSession
  split
  · trivial
  · exact all_storeOperation (all_withSessionLock (all_resolveLocked _))

theorem all_revokeToken (token : Option Text) : (revokeToken token).All (Harmless D) := by
  cases token with
  | none => trivial
  | some token => exact (all_harmless rfl rfl).handle fun _ => trivial

theorem all_logout (id csrfToken : Option Text) (attempts : Nat) :
    (logout D id csrfToken attempts).All (Harmless D) := by
  refine Prog.All.found.bind fun id => ?_
  have hlocked : (logoutLocked D id csrfToken).All (Harmless D) :=
    (all_readSession id).bind fun _ => Prog.All.found.bind fun _ => Prog.All.require.bind fun _ =>
      (all_deleteSession id).bind fun _ => trivial
  refine (all_storeOperation (all_withSessionLock hlocked)).bind fun session => ?_
  split
  · exact (all_revokeToken _).bind fun _ => all_revokeToken _
  · trivial

/-! ### Rules for the service -/

/-- The program answers within `Q`; its exceptions say nothing. -/
abbrev Meets (D : Deployment) {α : Type} (Q : α → List (Event (serving D)) → Shared → Prop)
    (p : Service α) (past : List (Event (serving D))) (w : Shared) : Prop :=
  Sat (logins D) Q (fun _ _ _ => True) p past w

section

variable {α β : Type} {Q : α → List (Event (serving D)) → Shared → Prop}
  {past : List (Event (serving D))}

theorem meets_raise {e : Failure} : Meets D Q (Prog.raise e) past w := fun _ _ _ => trivial

theorem meets_clock {next : TimeValue → Service α}
    (h : ∀ v, Grows w v → Keeps D v → Meets D Q (next v.env.clock) (⟨Op.clock, v, v⟩ :: past) v) :
    Meets D Q (Prog.perform .clock >>= next) past w := by
  refine Sat.op (fun v _ _ _ => (harmless_of_none rfl rfl).must past) ?_ ?_
  · intro v t v' hv hi _ hret _ _
    have hclock : Returns (Op.clock.exec D) v t v' := hret
    obtain ⟨a, s, hget, hclock⟩ := hclock.bind
    obtain ⟨rfl, rfl⟩ := hget.get
    obtain ⟨rfl, rfl⟩ := hclock.pure
    exact h _ hv hi
  · exact fun v e _ _ _ _ => meets_raise

theorem meets_send {command : Command} {next : Reply → Service α} (hlawful : Lawful D command)
    (h : ∀ v, Grows w v → Keeps D v → v.env.answers = true →
      Grows w (v.execute command) → Keeps D (v.execute command) →
      Meets D Q (next (command.exec v.redis v.server).1) (⟨Op.send command, v, v.execute command⟩ :: past)
        (v.execute command)) :
    Meets D Q (send command >>= next) past w := by
  have hmust (v : Shared) : (logins D).must past _ (Op.send command) v := by
    refine ⟨fun c hc => ?_, fun p hp => by cases hp⟩
    obtain rfl := Option.some.inj hc
    exact hlawful
  refine Sat.op (fun v _ _ _ => hmust v) ?_ ?_
  · intro v reply v' hv hi _ hret hi' hv'
    have hsend : Returns ((Op.send command).exec D) v reply v' := hret
    obtain ⟨hanswers, rfl, rfl⟩ | ⟨-, rfl, rfl⟩ := send_returns hsend
    · exact h v hv hi hanswers (hv.trans hv') hi'
    · exact meets_raise
  · exact fun v e _ _ _ _ => meets_raise

/-- A program that touches no login transaction. -/
theorem meets_harmless {p : Service β} (hp : p.All (Harmless D)) (hi : Keeps D w) {next : β → Service α}
    (h : ∀ b past' v, past <:+ past' → Grows w v → Keeps D v → Meets D Q (next b) past' v) :
    Meets D Q (p >>= next) past w := by
  have hall : Sat (logins D) (fun (_ : β) _ _ => True) (fun _ _ _ => True) p past w :=
    Sat.all (fun past β o v (hP : Harmless D β o) _ _ => hP.must past) hp past w
  refine Sat.bind hi ((hall.grown.tracked hi).mono ?_ ?_)
  · rintro b past' v ⟨⟨-, hpast⟩, hv, hiv⟩
    exact h b past' v hpast hv hiv
  · exact fun _ _ _ _ => trivial

theorem meets_require {p : Prop} [Decidable p] {e : Failure} {next : Unit → Service α}
    (h : p → Meets D Q (next ()) past w) : Meets D Q (Prog.require p e >>= next) past w :=
  Sat.require h fun _ _ _ => trivial

theorem meets_found {x : Option β} {e : Failure} {next : β → Service α}
    (h : ∀ b, x = some b → Meets D Q (next b) past w) : Meets D Q (Prog.found x e >>= next) past w :=
  Sat.found h fun _ _ _ => trivial

theorem meets_bind {P : β → List (Event (serving D)) → Shared → Prop} {p : Service β}
    {next : β → Service α} (hi : Keeps D w) (hp : Meets D P p past w)
    (h : ∀ b past' v, P b past' v → past <:+ past' → Grows w v → Keeps D v →
      Meets D Q (next b) past' v) : Meets D Q (p >>= next) past w := by
  refine Sat.bind hi ((hp.grown.tracked hi).mono ?_ ?_)
  · rintro b past' v ⟨⟨hP, hpast⟩, hv, hiv⟩
    exact h b past' v hP hpast hv hiv
  · exact fun _ _ _ _ => trivial

theorem meets_handle {p : Service α} {handler : Failure → Service α} (hi : Keeps D w)
    (hp : Meets D Q p past w) (h : ∀ e past' v, Meets D Q (handler e) past' v) :
    Meets D Q (p.handle handler) past w :=
  Sat.handle hi (Sat.mono (fun _ _ _ hQ => hQ) (fun e past' v _ => h e past' v) hp)

theorem meets_storeOperation {p : Service α} (hi : Keeps D w) (hp : Meets D Q p past w) :
    Meets D Q (storeOperation p) past w :=
  meets_handle hi hp fun e _ _ => by cases e <;> exact meets_raise

end

/-! ## Beginning a login -/

theorem timely {createdAt : TimeValue} {tx : LoginTransaction} (hcreated : tx.createdAt = createdAt)
    (hexpires : tx.expiresAt = createdAt + D.config.transactionSeconds * 1000) : tx.Timely := by
  have htime := createdAt.2
  have hseconds := D.config.transaction
  refine ⟨?_, ?_⟩
  · rw [hcreated]
    omega
  · rw [hexpires]
    omega

/-- A transaction the store accepts is created. -/
theorem meets_createTransaction {tx : LoginTransaction} (htimely : tx.Timely) {ttlMs : Nat}
    {past : List (Event (serving D))} (hi : Keeps D w) :
    Meets D (fun accepted _ v => accepted = true → Created D v tx) (createTransaction D tx ttlMs)
      past w := by
  unfold createTransaction
  cases hkey : storeKey D.namePrefix .login tx.id with
  | error e => exact meets_raise
  | ok key =>
    refine meets_harmless (all_harmless rfl rfl) hi fun iv past' v _ hv hiv => ?_
    cases hput : putCommand D.gcm D.ring key iv tx.json ttlMs true with
    | error e => exact meets_raise
    | ok command =>
      obtain ⟨value, hvalue, -, -, rfl⟩ := putCommand_ok.mp hput
      have hsealed : Sealed D tx key value := ⟨hkey, htimely, iv, hvalue⟩
      refine meets_send (fun id _ => ⟨rfl, tx, hsealed⟩) fun u _ _ _ _ _ => ?_
      refine Sat.ret fun x hx _ haccepted => ?_
      have hreply := eq_of_beq haccepted
      have hset : (Command.set key value ttlMs true, Reply.ok) ∈
          (u.execute (.set key value ttlMs true)).journal := by
        rw [← hreply]
        exact List.mem_cons_self
      exact ⟨key, value, hsealed, ttlMs, hx.journal _ hset⟩

theorem meets_createCandidate {returnPath : Text} {createdAt : TimeValue} {attempts : Nat}
    {past : List (Event (serving D))} (hi : Keeps D w) :
    Meets D (fun created _ v => ∀ tx, created = some tx → Created D v tx ∧ tx.createdAt = createdAt)
      (createCandidate D returnPath createdAt attempts) past w := by
  induction attempts generalizing past w with
  | zero => exact Sat.ret fun v _ _ tx h => by cases h
  | succ attempts ih =>
    refine meets_harmless all_randomOpaque hi fun id past v _ hv hiv => ?_
    refine meets_harmless all_randomOpaque hiv fun codeVerifier past u _ hu hiu => ?_
    refine meets_harmless all_randomOpaque hiu fun nonce past x _ hx hix => ?_
    have htimely : LoginTransaction.Timely
        { id, codeVerifier, nonce, returnPath, createdAt
          expiresAt := createdAt + D.config.transactionSeconds * 1000 } := timely rfl rfl
    refine meets_bind hix (meets_storeOperation hix (meets_createTransaction htimely hix)) ?_
    intro accepted past y hcreated _ _ hiy
    split
    · next haccepted =>
      refine Sat.ret fun z hz _ tx htx => ?_
      obtain rfl := Option.some.inj htx
      exact ⟨(hcreated haccepted).later hz, rfl⟩
    · exact ih hiy

theorem meets_sign {tx : LoginTransaction} (hcreated : Created D w tx)
    {past : List (Event (serving D))} :
    Meets D (fun _ _ _ => True) (sign tx.id (tx.createdAt / 1000)) past w := by
  refine meets_require fun _ => ?_
  have hmust (v : Shared) (hv : Grows w v) :
      (logins D).must past _ (Op.sign (statePayload tx.id (tx.createdAt / 1000))) v := by
    refine ⟨fun c hc => (nomatch hc), fun p hp => ?_⟩
    obtain rfl := Option.some.inj hp
    exact ⟨tx, hcreated.later hv, rfl⟩
  refine Sat.op (fun v hv _ _ => hmust v hv) ?_ ?_
  · exact fun _ _ _ _ _ _ _ _ _ => Sat.ret fun _ _ _ => trivial
  · exact fun _ _ _ _ _ _ => meets_raise

theorem meets_beginLogin {returnPath : Text} :
    Meets D (fun _ _ _ => True) (beginLogin D returnPath) [] w := by
  refine meets_require fun _ => meets_require fun _ => meets_clock fun v hv hiv => ?_
  refine meets_bind hiv (meets_createCandidate hiv) fun created past u hcreated _ _ hiu => ?_
  refine meets_found fun tx htx => ?_
  obtain ⟨hmade, htime⟩ := hcreated tx htx
  have hsign := @meets_sign _ _ _ hmade past
  rw [htime] at hsign
  refine meets_bind hiu hsign fun state past x _ _ _ hix => ?_
  have hurl : ((Prog.perform (.authorizationUrl state tx.nonce tx.codeVerifier)).handle
      fun _ => Prog.raise unavailable : Service Text).All (Harmless D) :=
    (all_harmless rfl rfl).handle fun _ => trivial
  exact meets_harmless hurl hix fun _ _ _ _ _ _ => Sat.ret fun _ _ _ => trivial

/-! ## Completing a login -/

theorem isOpaque_of_key {namePrefix key : List Char} {kind : Kind} {id : Text}
    (h : storeKey namePrefix kind id = .ok key) : isOpaque id = true := by
  unfold storeKey at h
  split at h
  · next hid => exact hid
  · cases h

/-- A signature that verifies was made for a transaction that was created. -/
theorem Keeps.payload (h : Keeps D w) {payload id : Text} {issuedAt : Int} (hpayload : payload ∈ w.signed)
    (hdecode : decodeState payload = some (id, issuedAt)) :
    ∃ time : Nat, issuedAt = time ∧ payload = statePayload id time := by
  obtain ⟨tx, ⟨key, value, ⟨hkey, htimely, -⟩, -⟩, rfl⟩ := h.signed payload hpayload
  have htime : tx.createdAt / 1000 < 2 ^ 53 := lt_of_le_of_lt (Nat.div_le_self _ _) htimely.1
  rw [decodeState_payload (isOpaque_of_key hkey) htime] at hdecode
  obtain ⟨rfl, rfl⟩ := Prod.mk.inj (Option.some.inj hdecode)
  exact ⟨_, rfl, rfl⟩

theorem meets_verifyOp {α : Type} {Q : α → List (Event (serving D)) → Shared → Prop}
    {past : List (Event (serving D))} {payload signature : Text} {next : Bool → Service α}
    (h : ∀ v, Grows w v → Keeps D v → (signature = D.hmac payload → payload ∈ v.signed) →
      Meets D Q (next (signature == D.hmac payload)) (⟨Op.verify payload signature, v, v⟩ :: past) v) :
    Meets D Q (Prog.perform (.verify payload signature) >>= next) past w := by
  refine Sat.op (fun v _ _ _ => (harmless_of_none rfl rfl).must past) ?_ ?_
  · intro v b v' hv hi hmay hret _ _
    have hverify : Returns ((Op.verify payload signature).exec D) v b v' := hret
    obtain ⟨rfl, rfl⟩ := hverify.pure
    exact h _ hv hi (hmay payload signature rfl)
  · exact fun _ _ _ _ _ _ => meets_raise

/-- The state was signed for this transaction, and not too long ago. -/
structure Verified (D : Deployment) (w : Shared) (state id : Text) (issuedAt now : Nat) : Prop where
  state : state = joinState (statePayload id issuedAt) (D.hmac (statePayload id issuedAt))
  signed : statePayload id issuedAt ∈ w.signed
  notEarly : issuedAt ≤ now + 30
  notExpired : now ≤ issuedAt + D.config.transactionSeconds

theorem Verified.later {state id : Text} {issuedAt now : Nat} (h : Verified D w state id issuedAt now)
    (hw : Grows w w') : Verified D w' state id issuedAt now :=
  ⟨h.state, hw.signed _ h.signed, h.notEarly, h.notExpired⟩

theorem meets_verify {value : Text} {now : Nat} {past : List (Event (serving D))} :
    Meets D (fun answer _ v => ∃ issuedAt : Nat, Verified D v value answer.1 issuedAt now)
      (verify D value now) past w := by
  refine meets_found fun parts hparts => ?_
  obtain ⟨payload, signature⟩ := parts
  refine meets_verifyOp fun v _ hiv hmade => meets_require fun hvalid => ?_
  refine meets_found fun answer hdecode => meets_require fun hfresh => ?_
  obtain ⟨id, issuedAt⟩ := answer
  have hsignature : signature = D.hmac payload := eq_of_beq hvalid
  refine Sat.ret fun u hu _ => ?_
  have hsigned := hmade hsignature
  obtain ⟨time, rfl, rfl⟩ := hiv.payload hsigned hdecode
  refine ⟨time, ?_, hu.signed _ hsigned, by omega, by omega⟩
  rw [splitState_eq hparts, hsignature]

/-- The events in which a transaction is taken out of the store. -/
def took (D : Deployment) (key value : List Char) (e : Event (serving D)) : Bool :=
  e.op.command == some (.getDel key) && e.before.env.answers &&
    e.before.redis.get e.before.server key == some value

/-- What is opened under the key of a transaction is a transaction that was created. -/
theorem Keeps.opened (h : Keeps D w) (hgcm : D.gcm.Correct)
    (hsha : ∀ bytes, (D.sha256 bytes).length = 32) {id : Text} {key raw : List Char}
    {tx : LoginTransaction} (hkey : storeKey D.namePrefix .login id = .ok key)
    (hget : w.redis.get w.server key = some raw)
    (hopen : openTransaction D key (.value raw) = some tx) : CreatedAs D w tx key raw := by
  obtain ⟨⟨value, expiry⟩, hentry, hlive⟩ := Option.bind_eq_some_iff.mp hget
  dsimp only at hlive
  split at hlive
  · obtain rfl := Option.some.inj hlive
    obtain ⟨px, nx, hset⟩ := h.entries key value expiry hentry
    obtain ⟨rfl, made, hsealed⟩ := h.journal _ hset id hkey
    have htimely := hsealed.2.1
    obtain ⟨iv, hencrypt⟩ := hsealed.2.2
    have hjson : made.json ≠ [] := List.cons_ne_nil _ _
    rw [openTransaction, decrypt_encrypt hgcm hsha hjson hencrypt, Option.bind_some] at hopen
    obtain rfl := decodeTransaction_json htimely.1 htimely.2 hopen
    exact ⟨hsealed, px, hset⟩
  · cases hlive

theorem meets_consumeTransaction (hgcm : D.gcm.Correct) (hsha : ∀ bytes, (D.sha256 bytes).length = 32)
    {id : Text} {past : List (Event (serving D))} :
    Meets D (fun consumed past' v => ∀ tx, consumed = some tx → ∃ key value, CreatedAs D v tx key value ∧
        openTransaction D key (.value value) = some tx ∧ past'.any (took D key value) = true)
      (consumeTransaction D id) past w := by
  unfold consumeTransaction
  cases hkey : storeKey D.namePrefix .login id with
  | error e => exact meets_raise
  | ok key =>
    refine meets_send trivial fun v _ hiv hanswers _ _ => Sat.ret fun u hu _ tx htx => ?_
    have hreply : ((Command.getDel key).exec v.redis v.server).1 = .ofValue (v.redis.get v.server key) := rfl
    rw [hreply] at htx
    cases hget : v.redis.get v.server key with
    | none =>
      rw [hget] at htx
      cases htx
    | some raw =>
      rw [hget] at htx
      have hcreated := (hiv.opened hgcm hsha hkey hget htx).later (grows_execute v (.getDel key))
      refine ⟨key, raw, hcreated.later hu, htx, ?_⟩
      have htook : took D key raw ⟨Op.send (.getDel key), v, v.execute (.getDel key)⟩ = true := by
        simp [took, Op.command, hanswers, hget]
      rw [List.any_cons, htook]
      rfl

/-- The clock was read, and showed this. -/
def ReadClock (past : List (Event (serving D))) (t : Nat) : Prop :=
  ∃ v : Shared, (⟨Op.clock, v, v⟩ : Event (serving D)) ∈ past ∧ v.env.clock = t

/-- What stands behind a completed login: the callback carries one state, signed by this
service for the transaction of the cookie; that transaction was created and taken out of the store
by this very call; neither had expired; and its nonce and verifier were used for the code. -/
structure Completed (D : Deployment) (callbackUrl : CallbackUrl) (correlationId : Option Text)
    (returnPath : Text) (past : List (Event (serving D))) (w : Shared) (tx : LoginTransaction)
    (key value : List Char) (state : Text) (issuedAt verifiedAt checkedAt : Nat) : Prop where
  states : callbackUrl.states = [state]
  cookie : correlationId = some tx.id
  verified : ReadClock past verifiedAt ∧ Verified D w state tx.id issuedAt (verifiedAt / 1000)
  created : CreatedAs D w tx key value
  taken : past.any (took D key value) = true ∧ openTransaction D key (.value value) = some tx
  checked : ReadClock past checkedAt ∧ checkedAt < tx.expiresAt ∧ tx.createdAt ≤ checkedAt + 30000
  exchanged : ∃ v v' : Shared, (⟨.exchange callbackUrl state tx.nonce tx.codeVerifier, v, v'⟩ :
    Event (serving D)) ∈ past ∧ v.env.response.bind (exchange D.config v.env.clock) ≠ none
  returned : returnPath = tx.returnPath ∧ tx.returnPath ∈ D.config.allowedReturnPaths

theorem meets_exchange {callbackUrl : CallbackUrl} {state nonce codeVerifier : Text}
    {past : List (Event (serving D))} (hi : Keeps D w) :
    Meets D (fun _ past' _ => ∃ v v' : Shared,
        (⟨.exchange callbackUrl state nonce codeVerifier, v, v'⟩ : Event (serving D)) ∈ past' ∧
          v.env.response.bind (exchange D.config v.env.clock) ≠ none)
      ((Prog.perform (.exchange callbackUrl state nonce codeVerifier)).handle
        fun _ => Prog.raise invalidCallback) past w := by
  refine meets_handle hi ?_ fun e past' v => meets_raise
  refine Sat.perform (fun v _ _ _ => (harmless_of_none rfl rfl).must past) ?_ ?_
  · intro v tokens v' u _ _ _ hret _ _
    refine ⟨v, v', List.mem_cons_self, ?_⟩
    have hexchange : Returns ((Op.exchange callbackUrl state nonce codeVerifier).exec D) v tokens v' :=
      hret
    obtain ⟨a, s, hget, hexchange⟩ := hexchange.bind
    obtain ⟨rfl, rfl⟩ := hget.get
    rw [hexchange.found.1]
    exact Option.some_ne_none _
  · exact fun _ _ _ _ _ _ _ _ _ => trivial

theorem meets_completeLogin (hgcm : D.gcm.Correct) (hsha : ∀ bytes, (D.sha256 bytes).length = 32)
    {callbackUrl : CallbackUrl} {correlationId previousSessionId : Option Text} {attempts : Nat} :
    Meets D (fun answer past v => ∃ tx key value state issuedAt verifiedAt checkedAt,
        Completed D callbackUrl correlationId answer.returnPath past v tx key value state issuedAt
          verifiedAt checkedAt)
      (completeLogin D callbackUrl correlationId previousSessionId attempts) [] w := by
  refine meets_require fun _ => ?_
  split
  · next state correlation hstates =>
    refine meets_require fun _ => meets_clock fun w₁ _ hi₁ => ?_
    refine meets_bind hi₁ meets_verify fun answer past₂ w₂ hverified hpast₂ _ hi₂ => ?_
    obtain ⟨issuedAt, hverified⟩ := hverified
    obtain ⟨id, issued⟩ := answer
    refine meets_require fun hcookie => ?_
    refine meets_bind hi₂ (meets_storeOperation hi₂ (meets_consumeTransaction hgcm hsha)) ?_
    intro consumed past₃ w₃ hconsumed hpast₃ hw₃ hi₃
    refine meets_clock fun w₄ hw₄ hi₄ => meets_found fun tx htx => meets_require fun hchecked => ?_
    obtain ⟨hlive, hearly, rfl, hpath⟩ := hchecked
    obtain ⟨key, value, hcreated, hopen, htook⟩ := hconsumed tx htx
    refine meets_bind hi₄ (meets_exchange hi₄) fun tokens past₅ w₅ hexchange hpast₅ hw₅ hi₅ => ?_
    refine meets_harmless (all_harmless rfl rfl) hi₅ fun csrfToken past₆ w₆ hpast₆ hw₆ hi₆ => ?_
    refine meets_harmless (all_freshSessionId _ _) hi₆ fun sessionId past₇ w₇ hpast₇ hw₇ hi₇ => ?_
    refine meets_require fun _ => ?_
    refine meets_harmless (all_dropPrevious _ _) hi₇ fun _ past₈ w₈ hpast₈ hw₈ hi₈ => ?_
    refine meets_harmless (all_save _ _) hi₈ fun _ past₉ w₉ hpast₉ hw₉ hi₉ => ?_
    refine meets_harmless (all_currentAge _) hi₉ fun age past' v hpast' hv hiv => ?_
    refine Sat.ret fun u hu _ => ?_
    -- the past of the answer ends with the past of every step before
    have hpast : past₅ <:+ past' :=
      ((hpast₆.trans hpast₇).trans (hpast₈.trans hpast₉)).trans hpast'
    have hworld : Grows w₅ u := (((hw₆.trans hw₇).trans (hw₈.trans hw₉)).trans hv).trans hu
    have hchecks : _ <:+ past' := hpast₅.trans hpast
    have hthird : past₃ <:+ past' := (List.suffix_cons _ _).trans hchecks
    refine ⟨tx, key, value, state, issuedAt, w₁.env.clock, w₄.env.clock, hstates, ?_, ⟨?_, ?_⟩, ?_,
      ⟨?_, hopen⟩, ⟨?_, hlive, hearly⟩, ?_, rfl, hpath⟩
    · rw [hcookie]
    · exact ⟨w₁, (hpast₂.trans (hpast₃.trans hthird)).mem List.mem_cons_self, rfl⟩
    · exact hverified.later (((hw₃.trans hw₄).trans hw₅).trans hworld)
    · exact hcreated.later ((hw₄.trans hw₅).trans hworld)
    · obtain ⟨e, he, htaken⟩ := List.any_eq_true.mp htook
      exact List.any_eq_true.mpr ⟨e, hthird.mem he, htaken⟩
    · exact ⟨w₄, hchecks.mem List.mem_cons_self, rfl⟩
    · obtain ⟨v₁, v₂, hevent, hresponse⟩ := hexchange
      exact ⟨v₁, v₂, hpast.mem hevent, hresponse⟩
  · exact meets_raise

/-- What each call owes. -/
def Answered (D : Deployment) : (c : Call) → c.Value → List (Event (serving D)) → Shared → Prop
  | .completeLogin callbackUrl correlationId _ _, answer, past, w =>
    ∃ tx key value state issuedAt verifiedAt checkedAt, Completed D callbackUrl correlationId
      answer.returnPath past w tx key value state issuedAt verifiedAt checkedAt
  | _, _, _, _ => True

theorem meets_all {α : Type} {p : Service α} (hp : p.All (Harmless D)) :
    Meets D (fun _ _ _ => True) p [] w :=
  Sat.all (fun past β o _ (hP : Harmless D β o) _ _ => hP.must past) hp [] w

theorem meets_call (hgcm : D.gcm.Correct) (hsha : ∀ bytes, (D.sha256 bytes).length = 32) (c : Call) :
    Meets D (Answered D c) (c.prog D) [] w := by
  cases c with
  | beginLogin returnPath => exact meets_beginLogin
  | completeLogin => exact meets_completeLogin hgcm hsha
  | resolveSession id attempts => exact meets_all (all_resolveSession id attempts)
  | logout id csrfToken attempts => exact meets_all (all_logout id csrfToken attempts)
  | getSession id => exact meets_all (all_readSession id)
  | deliver index => exact meets_all (all_harmless rfl rfl)

/-! ## A transaction leaves the store once -/

/-- The command that put a value under a key, accepted. -/
def isPut (key value : List Char) : Command × Reply → Bool
  | (.set k v _ _, .ok) => k == key && v == value
  | _ => false

/-- The command that took a value from under a key. -/
def isTake (key value : List Char) (e : Command × Reply) : Bool := e == (.getDel key, .value value)

/-- The value is under the key, perhaps past its time. -/
def holds (redis : Redis) (key value : List Char) : Nat :=
  if (redis key).map Prod.fst = some value then 1 else 0

/-- What was taken, and what is there to be taken, was put. -/
def Balanced (w : Shared) : Prop := ∀ key value,
  w.journal.countP (isTake key value) + holds w.redis key value ≤ w.journal.countP (isPut key value)

theorem holds_set (redis : Redis) (now : Nat) (k v : List Char) (px : Nat) (key value : List Char) :
    holds (redis.set now k v px) key value ≤
      holds redis key value + if (k == key && v == value) = true then 1 else 0 := by
  unfold holds Redis.set
  by_cases hkey : key = k
  · subst hkey
    rw [Function.update_self]
    by_cases hvalue : v = value
    · simp [hvalue]
    · simp [hvalue]
  · rw [Function.update_of_ne hkey]
    exact Nat.le_add_right _ _

theorem holds_del_le (redis : Redis) (k key value : List Char) :
    holds (redis.del k) key value ≤ holds redis key value := by
  unfold holds Redis.del
  by_cases hkey : key = k
  · subst hkey
    rw [Function.update_self]
    exact Nat.zero_le _
  · rw [Function.update_of_ne hkey]

/-- One command: what is taken was there, and what is new was put. -/
theorem exec_balanced (redis : Redis) (now : Nat) (command : Command) (key value : List Char) :
    (if isTake key value (command, (command.exec redis now).1) = true then 1 else 0) +
        holds (command.exec redis now).2 key value ≤
      holds redis key value +
        if isPut key value (command, (command.exec redis now).1) = true then 1 else 0 := by
  have hdel (k : List Char) := holds_del_le redis k key value
  cases command with
  | set k v px nx =>
    have htake (reply : Reply) : isTake key value (.set k v px nx, reply) = false := by simp [isTake]
    have hset := holds_set redis now k v px key value
    by_cases hnx : (nx && (redis.get now k).isSome) = true
    · have hexec : (Command.set k v px nx).exec redis now = (.nil, redis) := if_pos hnx
      rw [hexec, htake]
      simp [isPut]
    · have hexec : (Command.set k v px nx).exec redis now = (.ok, redis.set now k v px) := if_neg hnx
      rw [hexec, htake]
      simpa [isPut] using hset
  | get k => simp [Command.exec, isTake, isPut]
  | getDel k =>
    have hexec : (Command.getDel k).exec redis now = (.ofValue (redis.get now k), redis.del k) := rfl
    rw [hexec]
    cases hget : redis.get now k with
    | none => simpa [isTake, isPut, Reply.ofValue] using hdel k
    | some raw =>
      by_cases htaken : k = key ∧ raw = value
      · obtain ⟨rfl, rfl⟩ := htaken
        obtain ⟨⟨stored, expiry⟩, hentry, hlive⟩ := Option.bind_eq_some_iff.mp hget
        dsimp only at hlive
        split at hlive
        · obtain rfl := Option.some.inj hlive
          have hthere : holds redis k stored = 1 := by simp [holds, hentry]
          have hgone : holds (redis.del k) k stored = 0 := by simp [holds, Redis.del]
          simp [isTake, isPut, Reply.ofValue, hthere, hgone]
        · cases hlive
      · have htake : isTake key value (.getDel k, .ofValue (some raw)) = false := by
          simpa [isTake, Reply.ofValue] using htaken
        rw [htake]
        simpa [isPut] using hdel k
  | del k => simpa [Command.exec, isTake, isPut] using hdel k
  | delIf k v =>
    have htake (reply : Reply) : isTake key value (.delIf k v, reply) = false := by simp [isTake]
    by_cases hv : redis.get now k = some v
    · have hexec : (Command.delIf k v).exec redis now = (.integer 1, redis.del k) := if_pos hv
      rw [hexec, htake]
      simpa [isPut] using hdel k
    · have hexec : (Command.delIf k v).exec redis now = (.integer 0, redis) := if_neg hv
      rw [hexec, htake]
      simp [isPut]

theorem Balanced.execute (h : Balanced w) (command : Command) : Balanced (w.execute command) := by
  intro key value
  have hold := h key value
  have hexec := exec_balanced w.redis w.server command key value
  show ((command, (command.exec w.redis w.server).1) :: w.journal).countP (isTake key value) +
      holds (command.exec w.redis w.server).2 key value ≤
    ((command, (command.exec w.redis w.server).1) :: w.journal).countP (isPut key value)
  rw [List.countP_cons, List.countP_cons]
  omega

theorem balanced_respects (G : Guard (serving D)) : Respects G Balanced where
  op {cfg j β o b w} h _ hret := by
    obtain rfl | ⟨payload, -, rfl⟩ | ⟨command, -, rfl | rfl⟩ | ⟨index, command, -, rfl⟩ := Op.effect hret
    · exact h
    · exact h
    · exact h.execute command
    · exact h
    · exact h.execute command
  tick {t w} h := by
    cases t with
    | pass ms => exact h
    | env next => exact h

theorem balanced_initial (env : Env) : Balanced (.initial env) := fun _ _ => le_refl _

/-- The journal of a store only grows. -/
theorem journal_grows {β : Type} (o : Op β) (w : Shared) :
    w.journal.Sublist (commit (o.exec D) w).2.journal := by
  cases hc : commit (o.exec D) w with
  | mk r w' =>
    cases r with
    | error e => rw [(commit_error hc).1]
    | ok b =>
      obtain rfl | ⟨payload, -, rfl⟩ | ⟨command, -, rfl | rfl⟩ | ⟨index, command, -, rfl⟩ :=
        Op.effect (commit_ok hc)
      · exact List.Sublist.refl _
      · exact List.Sublist.refl _
      · exact List.sublist_cons_self _ _
      · exact List.Sublist.refl _
      · exact List.sublist_cons_self _ _

/-- Taking is noted in the journal. -/
theorem took_journal {key value : List Char} {β : Type} {o : Op β}
    (h : took D key value ⟨o, w, (commit (o.exec D) w).2⟩ = true) :
    (commit (o.exec D) w).2.journal = (.getDel key, .value value) :: w.journal := by
  simp only [took, Bool.and_eq_true, beq_iff_eq] at h
  obtain ⟨⟨hcommand, hanswers⟩, hget⟩ := h
  cases o with
  | send command =>
    obtain rfl := Option.some.inj hcommand
    cases hc : commit ((Op.send (.getDel key)).exec D) w with
    | mk r w' =>
      cases r with
      | error e =>
        have hraise := (commit_error hc).2
        unfold Op.exec Raises at hraise
        simp [hanswers, StateT.run_bind] at hraise
        cases hraise
      | ok b =>
        obtain ⟨-, -, rfl⟩ | ⟨hno, -⟩ := send_returns (commit_ok hc)
        · show (Command.getDel key, Reply.ofValue (w.redis.get w.server key)) :: w.journal = _
          rw [hget]
          rfl
        · rw [hanswers] at hno
          cases hno
  | clock | random | nonce | sign | verify | authorizationUrl | exchange | refresh | revoke | deliver =>
    cases hcommand

/-- No more jobs have taken a value than the journal shows. -/
theorem tally_took {G : Guard (serving D)} {env : Env} {cfg : Config (serving D)}
    (h : Reachable G (.initial env) cfg) (key value : List Char) :
    cfg.tally (took D key value) ≤ cfg.world.journal.countP (isTake key value) := by
  unfold Reachable at h
  induction h with
  | refl => exact le_refl _
  | @tail cfg cfg' _ hstep ih =>
    obtain ⟨htally, hworld⟩ | ⟨j, β, o, -, -, hworld, htally⟩ := hstep.tally
    · rw [htally]
      obtain hworld | ⟨t, hworld⟩ := hworld
      · rw [hworld]
        exact ih
      · rw [hworld]
        cases t with
        | pass ms => exact ih
        | env next => exact ih
    · rw [htally]
      have hgrows := (journal_grows (D := D) o cfg.world).countP_le (p := isTake key value)
      rw [← hworld] at hgrows
      split
      · next htook =>
        have htook := htook.1
        rw [hworld] at htook
        rw [hworld, took_journal htook, List.countP_cons]
        simp only [isTake, beq_self_eq_true, if_true]
        exact Nat.add_le_add_right ih 1
      · exact le_trans ih hgrows

/-- The call has answered, and has logged its caller in. -/
def completedBy (D : Deployment) (key value : List Char) (j : Job (serving D)) : Bool :=
  (match j.call with
    | .completeLogin .. => true
    | _ => false) &&
  (match j.rest with
    | some (.ret _) => true
    | _ => false) && j.history.any (took D key value)

/-- **Login transactions are used once, and only by their initiator.** In any run in which nobody
forges a signature, no more calls of `completeLogin` succeed with a transaction than the store has
accepted it for creation, and every call that succeeds has done so on its own terms. -/
theorem login_single_use (hgcm : D.gcm.Correct) (hsha : ∀ bytes, (D.sha256 bytes).length = 32)
    {env : Env} {cfg : Config (serving D)} (h : Reachable (unforged D) (.initial env) cfg) :
    (∀ key value, cfg.jobs.countP (completedBy D key value) ≤
      cfg.world.journal.countP (isPut key value)) ∧
      ∀ callbackUrl correlationId previousSessionId attempts answer past,
        (⟨.completeLogin callbackUrl correlationId previousSessionId attempts, some (.ret answer), past⟩ :
          Job (serving D)) ∈ cfg.jobs →
        ∃ tx key value state issuedAt verifiedAt checkedAt,
          Completed D callbackUrl correlationId answer.returnPath past cfg.world tx key value state
            issuedAt verifiedAt checkedAt := by
  refine ⟨fun key value => ?_, fun callbackUrl correlationId previousSessionId attempts answer past hj => ?_⟩
  · have hbalanced := (balanced_respects (unforged D)).reachable h (balanced_initial env) key value
    have htally := tally_took h key value
    have hcount : cfg.jobs.countP (completedBy D key value) ≤ cfg.tally (took D key value) := by
      refine List.countP_mono_left fun j _ hj => ?_
      simp only [completedBy, Bool.and_eq_true] at hj
      exact hj.2
    omega
  · obtain ⟨hi, hjobs⟩ := (logins D).sound (Answered D) (fun _ _ _ _ => True)
      (fun _ hG => hG) (fun c w _ => meets_call hgcm hsha c) h (.initial env)
    exact (hjobs _ hj _ rfl).returned rfl hi

/-! ### One login -/

def smallDeployment : Deployment where
  config := smallConfig
  commandTimeoutMs := 500
  namePrefix := "corpuskit".toList
  gcm := plainGcm
  sha256 := padded
  ring := smallRing
  hmac := fun payload => payload.take 8

def smallEnv : Env where
  clock := ⟨1000, by decide⟩
  bytes := zeroOpaque
  nonce := ⟨List.replicate 12 0, rfl⟩
  answers := true
  authorizationUrl := some (text "https://issuer.example/authorize")
  response := some (smallResponse 1)

def smallState : Text :=
  joinState (statePayload zeroOpaque.text 1) (smallDeployment.hmac (statePayload zeroOpaque.text 1))

def smallCallback : CallbackUrl := ⟨[(text "code", text "abc"), (text "state", smallState)]⟩

/-- The check of `unforged` before an operation. -/
def honest (D : Deployment) (cfg : Config (serving D)) (β : Type) (o : Op β) : Bool :=
  match o.verification with
  | some (payload, signature) => signature != D.hmac payload || cfg.world.signed.contains payload
  | none => true

/-- A login begins and is completed. -/
def smallLogin : Option (Config (serving smallDeployment)) :=
  runIf (honest smallDeployment) (Config.init (.initial smallEnv))
    (.start (Call.beginLogin (text "/")) :: acts _ 0 8 ++
      .start (Call.completeLogin smallCallback (some zeroOpaque.text) none 1) :: acts _ 1 11)

theorem smallLogin_reachable {cfg : Config (serving smallDeployment)} (h : smallLogin = some cfg) :
    Reachable (unforged smallDeployment) (.initial smallEnv) cfg := by
  have hcheck {cfg : Config (serving smallDeployment)} {j : Job (serving smallDeployment)} {β : Type}
      {o : Op β} (_ : j ∈ cfg.jobs) (hok : honest smallDeployment cfg β o = true) :
      unforged smallDeployment cfg j β o := by
    intro payload signature ho hsignature
    simpa [honest, ho, hsignature] using hok
  exact runIf_steps hcheck h

theorem smallLogin_single_use :
    (smallLogin.map fun cfg => cfg.jobs.countP fun j =>
      match j.rest with
      | some (.ret _) => true
      | _ => false) = some 2 ∧
    ∀ cfg, smallLogin = some cfg →
      (∀ key value, cfg.jobs.countP (completedBy smallDeployment key value) ≤
        cfg.world.journal.countP (isPut key value)) ∧
        ∀ callbackUrl correlationId previousSessionId attempts answer past,
          (⟨.completeLogin callbackUrl correlationId previousSessionId attempts, some (.ret answer), past⟩ :
            Job (serving smallDeployment)) ∈ cfg.jobs →
          ∃ tx key value state issuedAt verifiedAt checkedAt,
            Completed smallDeployment callbackUrl correlationId answer.returnPath past cfg.world tx key
              value state issuedAt verifiedAt checkedAt :=
  ⟨by decide +kernel, fun _ h =>
    login_single_use plainGcm_correct length_padded (smallLogin_reachable h)⟩

end CorpusKit.Web
