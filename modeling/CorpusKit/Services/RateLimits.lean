import CorpusKit.Domain.Artifacts
import CorpusKit.Domain.Errors
import CorpusKit.Library.Rules
import CorpusKit.Library.Table
import Mathlib.Algebra.Order.Floor.Semiring
import Mathlib.Data.Rat.Floor

/-! # Rate limiting of authenticated traffic

`DatabaseRateLimiter`: one counter a subject, route, method and window, raised by
an upsert that does not touch a counter at its limit. The clock is read in a
statement of its own, and so are the counters a purge deletes. -/

namespace CorpusKit.RateLimits

open Transaction Program Interleaving

def safeMethods : List String := ["GET", "HEAD", "POST", "PUT", "PATCH", "DELETE", "OPTIONS"]

/-- `_SAFE_ROUTE`. -/
def isSafeRoute (route : String) : Bool :=
  match route.toList with
  | [] => false
  | c :: rest => c == '/' && decide (rest.length ≤ 255) &&
      rest.all fun c => decide (0x20 ≤ c.toNat ∧ c.toNat ≤ 0x7e)

/-- The settings, in the ranges the constructor checks, with the upper-casing of
the platform and its digest of text. -/
structure Limiter where
  windowSeconds : Nat
  readRequests : Nat
  writeRequests : Nat
  retentionWindows : Nat
  upper : String → String
  digest : String → Sha256
  window_range : 10 ≤ windowSeconds ∧ windowSeconds ≤ 3600
  read_range : 1 ≤ readRequests ∧ readRequests ≤ 100000
  write_range : 1 ≤ writeRequests ∧ writeRequests ≤ 10000
  retention_range : 2 ≤ retentionWindows ∧ retentionWindows ≤ 100

structure Principal where
  organizationId : Uuid
  subject : String
  deriving DecidableEq, Repr

/-- Who asks for what, with the method as it is counted. -/
structure Key where
  organizationId : Uuid
  subject : String
  route : String
  method : String
  deriving DecidableEq, Repr

/-- `uq_api_rate_limit_windows_scope`. -/
structure Scope where
  organizationId : Uuid
  subjectSha256 : Sha256
  routeSha256 : Sha256
  method : String
  windowEpoch : Nat
  deriving DecidableEq, Repr

/-- `ApiRateLimitWindow`. -/
structure Window where
  scope : Scope
  requestCount : Nat
  deriving DecidableEq, Repr

structure Limits where
  windows : Table Uuid Window
  nextId : Uuid
  now : ℚ
  /-- Whether the database answers. -/
  available : Bool

/-- The counter of a scope. -/
def Limits.find (w : Limits) (scope : Scope) : Option (Uuid × Window) :=
  w.windows.find fun _ row => row.scope == scope

def Limits.count (w : Limits) (scope : Scope) : Option Nat :=
  (w.find scope).map fun row => row.2.requestCount

namespace Limiter

variable (l : Limiter)

def limit (method : String) : Nat :=
  if method = "GET" ∨ method = "HEAD" ∨ method = "OPTIONS" then l.readRequests else l.writeRequests

/-- `_window_state`: the window of a timestamp, and the seconds to its end. -/
def windowState (timestamp : ℚ) : Nat × Nat :=
  (⌊timestamp⌋₊ / l.windowSeconds, l.windowSeconds - ⌊timestamp⌋₊ % l.windowSeconds)

def epoch (timestamp : ℚ) : Nat := (l.windowState timestamp).1

def scope (key : Key) (epoch : Nat) : Scope :=
  ⟨key.organizationId, l.digest key.subject, l.digest key.route, key.method, epoch⟩

end Limiter

/-! ## Statements -/

abbrev LimitsTx := Tx Limits Error

def reach : LimitsTx Unit := do
  let w ← get
  require (w.available = true) .database

inductive Op : Type → Type
  /-- The scalar of `_window_state`. -/
  | clock : Op ℚ
  /-- The upsert of `enforce`: the new count, if the counter was below its limit. -/
  | upsert (key : Key) (epoch : Nat) : Op (Option Nat)
  /-- The page of `purge_expired`. -/
  | expired (current limit : Nat) : Op (List Uuid)
  | delete (ids : List Uuid) : Op Unit

def upsertCount (l : Limiter) (key : Key) (epoch : Nat) : LimitsTx (Option Nat) := do
  let w ← get
  match w.find (l.scope key epoch) with
  | none =>
    set { w with
      windows := w.windows.insert w.nextId ⟨l.scope key epoch, 1⟩, nextId := w.nextId + 1 }
    pure (some 1)
  | some (id, row) =>
    if row.requestCount < l.limit key.method then do
      set { w with windows := w.windows.insert id { row with requestCount := row.requestCount + 1 } }
      pure (some (row.requestCount + 1))
    else pure none

/-- The oldest windows that are over for long enough, as many as the page holds. -/
def expiredIds (l : Limiter) (current limit : Nat) : LimitsTx (List Uuid) := do
  let w ← get
  let old := w.windows.select fun _ row =>
    decide (row.scope.windowEpoch + l.retentionWindows < current)
  let ordered := old.insertionSort fun a b => a.2.scope.windowEpoch < b.2.scope.windowEpoch ∨
    (a.2.scope.windowEpoch = b.2.scope.windowEpoch ∧ a.1 ≤ b.1)
  pure ((ordered.take limit).map (·.1))

def deleteIds (ids : List Uuid) : LimitsTx Unit :=
  modify fun w => { w with windows := w.windows.deleteWhere fun id _ => ids.contains id }

def Op.exec (l : Limiter) {β : Type} : Op β → LimitsTx β
  | .clock => do
    reach
    let w ← get
    pure w.now
  | .upsert key epoch => do
    reach
    upsertCount l key epoch
  | .expired current limit => do
    reach
    expiredIds l current limit
  | .delete ids => do
    reach
    deleteIds ids

/-! ## Calls -/

abbrev Service := Prog Op Error

/-- The session of `enforce`: the seconds to the end of the window, and the count. -/
def countRequest (l : Limiter) (who : Principal) (method route : String) :
    Service (Nat × Option Nat) := do
  let timestamp ← Prog.perform .clock
  let counted ← Prog.perform (.upsert ⟨who.organizationId, who.subject, route, method⟩
    (l.epoch timestamp))
  pure ((l.windowState timestamp).2, counted)

def enforce (l : Limiter) (who : Principal) (method route : String) : Service Unit := do
  let method := l.upper method
  Prog.require (method ∈ safeMethods ∧ isSafeRoute route = true)
    (.trafficRateLimitExceeded "http.rate_limit.contract" l.windowSeconds)
  let (retryAfterSeconds, count) ← Prog.handle (countRequest l who method route) fun
    | .database => throw (.dependencyUnavailable "http.rate_limit")
    | e => throw e
  match count with
  | some count =>
    Prog.require (count ≤ l.limit method)
      (.trafficRateLimitExceeded "http.rate_limit" retryAfterSeconds)
  | none => throw (.trafficRateLimitExceeded "http.rate_limit" retryAfterSeconds)

def purgeExpired (l : Limiter) (limit : Nat) : Service Nat := do
  Prog.require (1 ≤ limit ∧ limit ≤ 1000) (.value "rate-limit cleanup must be between 1 and 1000")
  let timestamp ← Prog.perform .clock
  let ids ← Prog.perform (.expired (l.epoch timestamp) limit)
  if ids ≠ [] then do
    Prog.perform (.delete ids)
    pure ids.length
  else pure 0

inductive Call
  | enforce (who : Principal) (method route : String)
  | purgeExpired (limit : Nat)

def Call.Value : Call → Type
  | .enforce .. => Unit
  | .purgeExpired _ => Nat

def Call.prog (l : Limiter) : (c : Call) → Service c.Value
  | .enforce who method route => RateLimits.enforce l who method route
  | .purgeExpired limit => RateLimits.purgeExpired l limit

/-- Time passes, and the database comes and goes. -/
inductive Tick
  | pass (duration : ℚ) (forward : 0 ≤ duration)
  | database (available : Bool)

def Tick.apply : Tick → Limits → Limits
  | .pass duration _, w => { w with now := w.now + duration }
  | .database available, w => { w with available }

/-- Any number of calls of one deployment. -/
abbrev limiting (l : Limiter) : Machine where
  World := Limits
  Error := Error
  Op := Op
  exec := fun o => o.exec l
  Call := Call
  Value := Call.Value
  prog := Call.prog l
  Tick := Tick
  tick := Tick.apply

def Limits.initial : Limits where
  windows := ∅
  nextId := 0
  now := 0
  available := true

/-! ## What a statement does -/

section Inversion

variable {l : Limiter} {w w' : Limits} {β : Type} {b : β}

theorem reach_returns {u : Unit} (h : Returns reach w u w') : w.available = true ∧ w = w' := by
  obtain ⟨a, t, hget, h⟩ := h.bind
  obtain ⟨rfl, rfl⟩ := hget.get
  exact h.require

theorem clock_returns {t : ℚ} (h : Returns (Op.clock.exec l) w t w') : t = w.now ∧ w = w' := by
  obtain ⟨u, s, hreach, h⟩ := h.bind
  obtain ⟨-, rfl⟩ := reach_returns hreach
  obtain ⟨a, s, hget, h⟩ := h.bind
  obtain ⟨rfl, rfl⟩ := hget.get
  obtain ⟨rfl, rfl⟩ := h.pure
  exact ⟨rfl, rfl⟩

/-- The three outcomes of an upsert. -/
theorem upsert_returns {key : Key} {epoch : Nat} {counted : Option Nat}
    (h : Returns ((Op.upsert key epoch).exec l) w counted w') : w.available = true ∧
      ((w.find (l.scope key epoch) = none ∧ counted = some 1 ∧ w' = { w with
          windows := w.windows.insert w.nextId ⟨l.scope key epoch, 1⟩, nextId := w.nextId + 1 }) ∨
        ∃ id row, w.find (l.scope key epoch) = some (id, row) ∧
          ((row.requestCount < l.limit key.method ∧ counted = some (row.requestCount + 1) ∧
              w' = { w with
                windows := w.windows.insert id { row with requestCount := row.requestCount + 1 } }) ∨
            (l.limit key.method ≤ row.requestCount ∧ counted = none ∧ w' = w))) := by
  obtain ⟨u, s, hreach, h⟩ := h.bind
  obtain ⟨havailable, rfl⟩ := reach_returns hreach
  refine ⟨havailable, ?_⟩
  unfold upsertCount at h
  obtain ⟨a, s, hget, h⟩ := h.bind
  obtain ⟨rfl, rfl⟩ := hget.get
  split at h
  · next hnone =>
    obtain ⟨u, s, hset, h⟩ := h.bind
    obtain rfl := hset.set
    obtain ⟨rfl, rfl⟩ := h.pure
    exact .inl ⟨hnone, rfl, rfl⟩
  · next id row hsome =>
    refine .inr ⟨id, row, hsome, ?_⟩
    obtain ⟨hlt, h⟩ | ⟨hge, h⟩ := h.ite
    · obtain ⟨u, s, hset, h⟩ := h.bind
      obtain rfl := hset.set
      obtain ⟨rfl, rfl⟩ := h.pure
      exact .inl ⟨hlt, rfl, rfl⟩
    · obtain ⟨rfl, rfl⟩ := h.pure
      exact .inr ⟨Nat.le_of_not_lt hge, rfl, rfl⟩

theorem expired_returns {current limit : Nat} {ids : List Uuid}
    (h : Returns ((Op.expired current limit).exec l) w ids w') : w = w' ∧ ∀ id ∈ ids, ∃ row,
      w.windows.lookup id = some row ∧ row.scope.windowEpoch + l.retentionWindows < current := by
  obtain ⟨u, s, hreach, h⟩ := h.bind
  obtain ⟨-, rfl⟩ := reach_returns hreach
  obtain ⟨a, s, hget, h⟩ := h.bind
  obtain ⟨rfl, rfl⟩ := hget.get
  obtain ⟨rfl, rfl⟩ := h.pure
  refine ⟨rfl, fun id hid => ?_⟩
  obtain ⟨e, he, rfl⟩ := List.mem_map.mp hid
  have hold := (List.mem_insertionSort _).mp (List.mem_of_mem_take he)
  obtain ⟨hlookup, hover⟩ := Table.mem_select.mp hold
  exact ⟨e.2, hlookup, by simpa using hover⟩

theorem delete_returns {ids : List Uuid} {u : Unit}
    (h : Returns ((Op.delete ids).exec l) w u w') :
    w' = { w with windows := w.windows.deleteWhere fun id _ => ids.contains id } := by
  obtain ⟨u, s, hreach, h⟩ := h.bind
  obtain ⟨-, rfl⟩ := reach_returns hreach
  exact h.modify.symm

end Inversion

end CorpusKit.RateLimits
