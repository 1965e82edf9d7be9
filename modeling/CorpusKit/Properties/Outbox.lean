import CorpusKit.System.Obligations

/-! # Delivery of the outbox

Any number of dispatchers lease, publish and acknowledge the messages of one outbox.
A claim selects its candidates by their time, but the updates that lease them do not
look at it again. -/

namespace CorpusKit

open Transaction Program Interleaving

/-- The dispatchers: each call leases a batch and publishes it. -/
structure Dispatch where
  workerId : String
  limit : Nat
  reaches : DispatchMessage → Bool

def dispatchers (dep : Deployment) : Calls where
  Call := Dispatch
  Value _ := DispatchResult
  prog c := TransactionalOutbox.dispatchBatch dep c.workerId c.limit c.reaches

abbrev DispatchConfig (dep : Deployment) : Type 1 := Config (system dep (dispatchers dep))

variable {dep : Deployment}

/-! ## What a dispatcher does -/

/-- The transactions of a dispatcher. -/
def Action.dispatches {β : Type} : Action β → Prop
  | .claim .. => True
  | .markPublished .. => True
  | .releaseFailed .. => True
  | _ => False

/-- It looks at the world, publishes, or runs one of its transactions. -/
def Request.publishes {β : Type} : Request β → Prop
  | .publish _ => True
  | _ => False

def Op.dispatches {β : Type} : Op β → Prop
  | .query _ => True
  | .request r => r.publishes
  | .write action => action.dispatches

/-- The messages a claim is about to lease. -/
def Action.leases {β : Type} : Action β → List Uuid
  | .claim _ _ _ ids => ids
  | _ => []

def Op.leases {β : Type} : Op β → List Uuid
  | .write action => action.leases
  | _ => []

/-- The message whose publication is acknowledged. -/
def Action.acknowledges {β : Type} : Action β → Option Uuid
  | .markPublished id _ _ => some id
  | _ => none

def Op.acknowledges {β : Type} : Op β → Option Uuid
  | .write action => action.acknowledges
  | _ => none

section Rows

open TransactionalOutbox

variable {db db' : Db} {id k : Uuid} {message : OutboxMessage}

/-- The row is as it was, or it was claimable and is claimed now. -/
def Leased (expired : Instant) (db db' : Db) (k : Uuid) : Prop :=
  ∃ m m', db.outboxMessages.lookup k = some m ∧ isClaimable expired m = true ∧
    db'.outboxMessages.lookup k = some m' ∧ m'.state = .claimed

theorem claimOne_row {workerId : String} {now expired : Instant} {answer : Option DispatchMessage}
    (h : Returns (claimOne workerId now expired id) db answer db') (k : Uuid) :
    db'.outboxMessages.lookup k = db.outboxMessages.lookup k ∨
      k = id ∧ Leased expired db db' k := by
  unfold claimOne at h
  obtain ⟨a, s, hget, h⟩ := h.bind
  obtain ⟨rfl, rfl⟩ := hget.get
  split at h
  · obtain ⟨-, rfl⟩ := h.pure
    exact .inl rfl
  · next row hrow =>
    rw [Option.filter_eq_some_iff] at hrow
    obtain ⟨u, s, hset, h⟩ := h.bind
    obtain rfl := hset.set
    obtain ⟨-, rfl⟩ := h.pure
    by_cases hk : k = id
    · subst hk
      exact .inr ⟨rfl, row, _, hrow.1, hrow.2, AList.lookup_insert _, rfl⟩
    · exact .inl (AList.lookup_insert_ne hk)

/-- A claim leaves what it does not select, and what it may not lease. -/
theorem claimAll_row {workerId : String} {now expired : Instant} {ids : List Uuid}
    {answer : List DispatchMessage}
    (h : Returns (claimAll workerId now expired ids) db answer db') (k : Uuid) :
    db'.outboxMessages.lookup k = db.outboxMessages.lookup k ∨
      k ∈ ids ∧ Leased expired db db' k := by
  induction ids generalizing db answer with
  | nil =>
    obtain ⟨-, rfl⟩ := h.pure
    exact .inl rfl
  | cons id ids ih =>
    obtain ⟨claimed, s, hone, h⟩ := h.bind
    obtain ⟨rest, s', hrest, h⟩ := h.bind
    obtain ⟨-, rfl⟩ := h.pure
    obtain heq | ⟨rfl, m, m', hm, hclaim, hm', hstate⟩ := claimOne_row hone k
    · obtain heq' | ⟨hmem, m, m', hm, hrest⟩ := ih hrest
      · exact .inl (heq'.trans heq)
      · exact .inr ⟨List.mem_cons_of_mem _ hmem, m, m', heq ▸ hm, hrest⟩
    · -- leased by the first update, whatever the others do
      obtain heq' | ⟨-, -, m'', -, -, hm'', hstate'⟩ := ih hrest
      · exact .inr ⟨List.mem_cons_self, m, m', hm, hclaim, heq'.trans hm', hstate⟩
      · exact .inr ⟨List.mem_cons_self, m, m'', hm, hclaim, hm'', hstate'⟩

theorem markPublished_row {workerId : String} {now : Instant} {u : Unit}
    (h : Returns (markPublished id workerId now) db u db') :
    ∃ message, db.outboxMessages.lookup id = some message ∧ message.state = .claimed ∧
      db' = { db with
        outboxMessages := db.outboxMessages.insert id
          { message with state := .published, processedAt := some now } } := by
  unfold markPublished at h
  obtain ⟨message, s, hown, h⟩ := h.bind
  obtain ⟨hrow, hclaimed, -, rfl⟩ := ownClaim_returns hown
  exact ⟨message, hrow, hclaimed, h.modify.symm⟩

theorem releaseFailed_row {workerId : String} {now : Instant} {u : Unit}
    (h : Returns (releaseFailed id workerId now) db u db') :
    ∃ message, db.outboxMessages.lookup id = some message ∧ message.state = .claimed ∧
      db' = { db with
        outboxMessages := db.outboxMessages.insert id
          { message with
            state := .pending, claimedAt := none, claimedBy := none
            availableAt := now + publisherRetryDelay
            lastErrorCode := some "publisher_unavailable" } } := by
  unfold releaseFailed at h
  obtain ⟨message, s, hown, h⟩ := h.bind
  obtain ⟨hrow, hclaimed, -, rfl⟩ := ownClaim_returns hown
  exact ⟨message, hrow, hclaimed, h.modify.symm⟩

end Rows

/-- The message is there and has been published. -/
def World.Published (w : World) (id : Uuid) : Prop :=
  ∃ message, w.db.outboxMessages.lookup id = some message ∧ message.state = .published

theorem World.Published.of_eq {w w' : World} {id : Uuid}
    (h : w'.db.outboxMessages.lookup id = w.db.outboxMessages.lookup id) (hp : w.Published id) :
    w'.Published id := by
  obtain ⟨message, hrow, hstate⟩ := hp
  exact ⟨message, h.trans hrow, hstate⟩

/-- What an operation of a dispatcher does to the messages. -/
structure Op.Moves {β : Type} (o : Op β) (w w' : World) : Prop where
  rows : w.db.outboxMessages.Extends w'.db.outboxMessages
  stays : ∀ {id}, w.Published id → w'.Published id
  published : ∀ {id}, w'.Published id → w.Published id ∨ o.acknowledges = some id
  taken : ∀ {id m m'}, w.db.outboxMessages.lookup id = some m →
    w'.db.outboxMessages.lookup id = some m' → m'.attempts ≠ m.attempts → id ∈ o.leases

variable {β : Type} {b : β} {w w' : World}

theorem Op.Moves.of_eq {o : Op β} (h : w'.db = w.db) : o.Moves w w' where
  rows := h ▸ .refl _
  stays hp := hp.of_eq (by rw [h])
  published hp := .inl (hp.of_eq (by rw [h]))
  taken hm hm' hne := by
    rw [h, hm] at hm'
    cases hm'
    exact absurd rfl hne

/-- A transaction that rewrites one claimed message. -/
theorem Op.Moves.of_insert {o : Op β} {db : Db} {id : Uuid} {message message' : OutboxMessage}
    (hrow : w.db.outboxMessages.lookup id = some message) (hclaimed : message.state = .claimed)
    (hdb : db.outboxMessages = w.db.outboxMessages.insert id message')
    (hattempts : message'.attempts = message.attempts)
    (hstate : message'.state = .published → o.acknowledges = some id) :
    o.Moves w { w with db } where
  rows := hdb ▸ .insert
  stays := by
    rintro k ⟨m, hm, hstate⟩
    have hne : k ≠ id := by
      rintro rfl
      rw [hrow] at hm
      cases hm
      rw [hclaimed] at hstate
      cases hstate
    exact ⟨m, by rw [hdb, AList.lookup_insert_ne hne]; exact hm, hstate⟩
  published := by
    rintro k ⟨m, hm, hpublished⟩
    obtain ⟨rfl, rfl⟩ | ⟨-, hold⟩ := Table.lookup_insert_cases (hdb ▸ hm)
    · exact .inr (hstate hpublished)
    · exact .inl ⟨m, hold, hpublished⟩
  taken := by
    intro k m m' hm hm' hne
    obtain ⟨rfl, rfl⟩ | ⟨-, hold⟩ := Table.lookup_insert_cases (hdb ▸ hm')
    · rw [hrow] at hm
      cases hm
      exact absurd hattempts hne
    · rw [hm] at hold
      cases hold
      exact absurd rfl hne

theorem published_not_claimable {db : Db} (hi : db.Inv) {id : Uuid} {message : OutboxMessage}
    {expired : Instant} (hrow : db.outboxMessages.lookup id = some message)
    (hstate : message.state = .published) :
    TransactionalOutbox.isClaimable expired message = false := by
  have hprocessed := (hi.outbox.coherent hrow).published.mp hstate
  unfold TransactionalOutbox.isClaimable
  rw [beq_eq_false_iff_ne.mpr hprocessed, Bool.false_and]

theorem Op.moves {o : Op β} (hi : w.Inv dep) (ho : o.dispatches)
    (h : Returns (o.exec dep) w b w') : o.Moves w w' := by
  cases o with
  | query q =>
    obtain ⟨-, rfl⟩ := query_returns h
    exact .of_eq rfl
  | request r => exact .of_eq (r.db_eq h)
  | write action =>
    obtain ⟨db, hbody, rfl⟩ := transact_returns h
    cases action with
    | claim workerId now expired ids =>
      refine ⟨fun k m hm => ?_, fun {k} hp => ?_, fun {k} hp => ?_,
        fun {k m m'} hm hm' hne => ?_⟩ <;>
        obtain heq | ⟨hmem, m, m', hold, hclaim, hnew, hstate⟩ := claimAll_row hbody k
      · exact ⟨m, heq.trans hm⟩
      · exact ⟨_, hnew⟩
      · exact hp.of_eq heq
      · obtain ⟨row, hrow, hpublished⟩ := hp
        obtain rfl : row = m := Option.some.inj (hrow.symm.trans hold)
        exact absurd hclaim (Bool.eq_false_iff.mp (published_not_claimable hi.db hrow hpublished))
      · exact .inl (hp.of_eq heq.symm)
      · obtain ⟨row, hrow, hpublished⟩ := hp
        obtain rfl : row = m' := Option.some.inj (hrow.symm.trans hnew)
        rw [hstate] at hpublished
        cases hpublished
      · obtain rfl : m' = m := Option.some.inj (hm'.symm.trans (heq.trans hm))
        exact absurd rfl hne
      · exact hmem
    | markPublished id workerId now =>
      obtain ⟨message, hrow, hclaimed, rfl⟩ := markPublished_row hbody
      exact .of_insert hrow hclaimed rfl rfl fun _ => rfl
    | releaseFailed id workerId now =>
      obtain ⟨message, hrow, hclaimed, rfl⟩ := releaseFailed_row hbody
      exact .of_insert hrow hclaimed rfl rfl nofun
    | _ => exact ho.elim

theorem delivered_of_owes {o : Op β} {id : Uuid} (howes : o.Owes dep w)
    (h : o.acknowledges = some id) : id ∈ w.delivered := by
  cases o with
  | query q => cases h
  | request r => cases h
  | write action =>
    cases action with
    | markPublished id' workerId now =>
      cases h
      exact howes
    | _ => cases h

/-! ## The contract of the dispatchers -/

/-- The world moves on, and what has been published stays so. -/
structure World.Delivers (w w' : World) : Prop where
  later : w.Later w'
  rows : w.db.outboxMessages.Extends w'.db.outboxMessages
  stays : ∀ id, w.Published id → w'.Published id

theorem World.Delivers.refl (w : World) : w.Delivers w := ⟨.refl w, .refl _, fun _ h => h⟩

theorem World.Delivers.trans {u v w : World} (h : u.Delivers v) (h' : v.Delivers w) :
    u.Delivers w :=
  ⟨h.later.trans h'.later, h.rows.trans h'.rows, fun id hp => h'.stays id (h.stays id hp)⟩

/-- The call has seen the message due. -/
def SeenDue (past : List (Event (system dep (dispatchers dep)))) (w : World) (id : Uuid) : Prop :=
  ∃ e ∈ past, ∃ m, e.before.db.outboxMessages.lookup id = some m ∧ m.availableAt ≤ w.now

/-- What a dispatcher sees to before it acts. -/
structure Meets {β : Type} (past : List (Event (system dep (dispatchers dep)))) (o : Op β)
    (w : World) : Prop where
  dispatches : o.dispatches
  owes : o.Owes dep w
  due : ∀ id ∈ o.leases, SeenDue past w id

theorem Tick.delivers (t : Tick) (hi : w.Inv dep) : w.Delivers (t.apply w) where
  later := (Tick.keeps t hi).2
  rows := by cases t <;> exact .refl _
  stays id hp := hp.of_eq (by cases t <;> rfl)

def dispatching (dep : Deployment) : Contract (system dep (dispatchers dep)) where
  inv := World.Inv dep
  evolve := World.Delivers
  may _ _ _ := True
  must past _ o w := Meets past o w
  refl := World.Delivers.refl
  trans := World.Delivers.trans
  op hi _ hmust h :=
    have hmoves := Op.moves hi hmust.dispatches h
    ⟨(Op.keeps hi hmust.owes h).1, (Op.keeps hi hmust.owes h).2, hmoves.rows,
      fun _ hp => hmoves.stays hp⟩
  tick hi := ⟨(Tick.keeps _ hi).1, Tick.delivers _ hi⟩

section Programs

variable {α : Type} {past : List (Event (system dep (dispatchers dep)))}
  {Q : α → List (Event (system dep (dispatchers dep))) → World → Prop}
  {E : Error → List (Event (system dep (dispatchers dep))) → World → Prop}

theorem meets_query {β : Type} (q : World → Except Error β) (w : World) :
    Meets past (Op.query q) w :=
  ⟨trivial, trivial, fun _ hid => (List.not_mem_nil hid).elim⟩

namespace TransactionalOutbox

theorem candidates_returns {now expired : Instant} {limit : Nat} {ids : List Uuid} {db db' : Db}
    (h : Returns (candidates now expired limit) db ids db') {id : Uuid} (hid : id ∈ ids) :
    ∃ m, db.outboxMessages.lookup id = some m ∧ m.availableAt ≤ now := by
  unfold candidates at h
  obtain ⟨a, s, hget, h⟩ := h.bind
  obtain ⟨rfl, rfl⟩ := hget.get
  obtain ⟨rfl, -⟩ := h.pure
  obtain ⟨⟨k, m⟩, hmem, rfl⟩ := List.mem_map.mp hid
  have hdue := (List.perm_insertionSort _ _).subset (List.mem_of_mem_take hmem)
  obtain ⟨hrow, hpass⟩ := Table.mem_select.mp hdue
  simp only [Bool.and_eq_true, decide_eq_true_eq] at hpass
  exact ⟨m, hrow, hpass.1⟩

/-- The updates that hit are of candidates. -/
theorem touchAll_meets (expired : Instant) (ids : List Uuid) (hi : w.Inv dep) :
    Sat (dispatching dep) (fun hits _ _ => ∀ id ∈ hits, id ∈ ids) (fun _ _ _ => True)
      (touchAll expired ids) past w := by
  induction ids generalizing past w with
  | nil => exact Sat.ret (C := dispatching dep) fun _ _ _ id hid => hid
  | cons id ids ih =>
    refine sat_read (C := dispatching dep) hi (fun _ _ => meets_query _ _)
      (fun _ hit _ u _ _ _ _ _ hiu => ?_) fun _ _ _ _ _ _ _ _ _ => trivial
    refine Sat.bind (C := dispatching dep) hiu ((ih hiu).mono (fun hits past v h => ?_)
      fun _ _ _ _ => trivial)
    refine Sat.ret (C := dispatching dep) fun _ _ _ k hk => ?_
    split at hk
    · exact (List.mem_cons.mp hk).elim (fun heq => heq ▸ List.mem_cons_self)
        fun hmem => List.mem_cons_of_mem _ (h k hmem)
    · exact List.mem_cons_of_mem _ (h k hk)

theorem claim_meets (workerId : String) (limit : Nat) (lease : Duration) (hi : w.Inv dep) :
    Sat (dispatching dep) (fun _ _ _ => True) (fun _ _ _ => True)
      (claim workerId limit lease) past w := by
  refine Sat.require (C := dispatching dep) (fun _ => ?_) fun _ _ _ => trivial
  refine sat_look (C := dispatching dep) hi (fun _ => meets_query _ _)
    fun v u _ _ _ hvu hiu => ?_
  refine sat_read_event (C := dispatching dep) hiu (fun _ _ => meets_query _ _)
    (fun x ids db y o hux hix hret hxy hiy => ?_) fun _ _ _ _ _ _ _ _ _ => trivial
  have hnow : v.now ≤ y.now := (hvu.later.trans (hux.later.trans hxy.later)).now
  refine Sat.bind (C := dispatching dep) hiy ((Sat.tracked (C := dispatching dep) hiy
    (touchAll_meets _ ids hiy).grown).mono (fun hits past z h => ?_) fun _ _ _ _ => trivial)
  obtain ⟨⟨hhits, hsuffix⟩, hyz, -⟩ := h
  refine Sat.perform (C := dispatching dep) (fun t ht _ _ => ⟨trivial, trivial, fun id hid => ?_⟩)
    (fun _ _ _ _ _ _ _ _ _ _ => trivial) fun _ _ _ _ _ _ _ _ _ => trivial
  obtain ⟨m, hrow, hdue⟩ := candidates_returns hret (hhits id hid)
  refine ⟨_, hsuffix.subset List.mem_cons_self, m, hrow, ?_⟩
  exact hdue.trans (hnow.trans (hyz.later.trans ht.later).now)

/-- A message is acknowledged after its publication. -/
theorem publishAll_meets (workerId : String) (reaches : DispatchMessage → Bool)
    (messages : List DispatchMessage) (hi : w.Inv dep) :
    Sat (dispatching dep) (fun _ _ _ => True) (fun _ _ _ => True)
      (publishAll workerId reaches messages) past w := by
  have hfree : ∀ {β : Type} {past : List (Event (system dep (dispatchers dep)))} {o : Op β}
      {v : World}, o.dispatches → o.Owes dep v → o.leases = [] → Meets past o v :=
    fun ho howes hnone => ⟨ho, howes, fun id hid => by rw [hnone] at hid; cases hid⟩
  induction messages generalizing past w with
  | nil => exact Sat.ret (C := dispatching dep) fun _ _ _ => trivial
  | cons message messages ih =>
    unfold publishAll
    split
    · refine sat_ask (C := dispatching dep) hi (fun _ _ _ _ => hfree trivial trivial rfl)
        (fun v b v' u _ _ _ _ hret _ hu hiu => ?_) fun _ _ _ _ _ _ _ _ _ => trivial
      have hdelivered : message.id ∈ u.delivered := hu.later.delivered (by
        rw [publish_returns hret]
        exact List.mem_cons_self)
      refine sat_look (C := dispatching dep) hiu (fun _ => meets_query _ _)
        fun x y _ hux _ hxy hiy => ?_
      refine sat_write (C := dispatching dep) hiy
        (fun z hyz _ _ => hfree trivial ?_ rfl)
        (fun _ _ _ t _ _ _ _ _ _ _ hit => ?_) fun _ _ _ _ _ _ _ _ _ => trivial
      · exact ((hux.later.trans hxy.later).trans hyz.later).delivered hdelivered
      · exact Sat.bind (C := dispatching dep) hit ((ih hit).mono
          (fun _ _ _ _ => Sat.ret (C := dispatching dep) fun _ _ _ => trivial)
          fun _ _ _ _ => trivial)
    · refine sat_look (C := dispatching dep) hi (fun _ => meets_query _ _)
        fun x y _ _ _ _ hiy => ?_
      refine sat_write (C := dispatching dep) hiy
        (fun z _ _ _ => hfree trivial trivial rfl)
        (fun _ _ _ t _ _ _ _ _ _ _ hit => ?_) fun _ _ _ _ _ _ _ _ _ => trivial
      exact Sat.bind (C := dispatching dep) hit ((ih hit).mono
        (fun _ _ _ _ => Sat.ret (C := dispatching dep) fun _ _ _ => trivial)
        fun _ _ _ _ => trivial)

theorem dispatchBatch_meets (c : Dispatch) (hi : w.Inv dep) :
    Sat (dispatching dep) (fun _ _ _ => True) (fun _ _ _ => True)
      ((dispatchers dep).prog c) [] w := by
  refine Sat.bind (C := dispatching dep) hi ((Sat.tracked (C := dispatching dep) hi
    (claim_meets c.workerId c.limit dep.leaseDuration hi)).mono (fun messages past u h => ?_)
    fun _ _ _ _ => trivial)
  exact Sat.bind (C := dispatching dep) h.2.2 ((publishAll_meets _ _ _ h.2.2).mono
    (fun _ _ _ _ => Sat.ret (C := dispatching dep) fun _ _ _ => trivial) fun _ _ _ _ => trivial)

end TransactionalOutbox

end Programs

/-! ## Later claims -/

/-- From some time on, a claim selects the message and its update hits. -/
def Db.Takeable (db : Db) (lease : Duration) (id : Uuid) : Prop :=
  ∃ from₀, ∀ now, from₀ ≤ now → ∀ limit workerId, db.outboxMessages.rows.length ≤ limit →
    ∃ ids answer db', Returns (TransactionalOutbox.candidates now (now - lease) limit) db ids db ∧
      id ∈ ids ∧
      Returns (TransactionalOutbox.claimOne workerId now (now - lease) id) db (some answer) db'

theorem OutboxMessage.Coherent.waiting {m : OutboxMessage} (h : m.Coherent)
    (hstate : m.state ≠ .published) :
    m.state = .pending ∨ m.state = .claimed ∧ m.claimedAt ≠ none ∧ m.claimedBy ≠ none := by
  cases hs : m.state with
  | pending => exact .inl rfl
  | claimed => exact .inr ⟨rfl, h.claimed hs⟩
  | published => exact absurd hs hstate

namespace TransactionalOutbox

theorem claimOne_some (workerId : String) (now : Instant) {db : Db} {expired : Instant}
    {id : Uuid} {m : OutboxMessage} (hrow : db.outboxMessages.lookup id = some m)
    (hclaim : isClaimable expired m = true) :
    ∃ answer db', Returns (claimOne workerId now expired id) db (some answer) db' := by
  have hhit : (db.outboxMessages.lookup id).filter (isClaimable expired) = some m := by
    rw [hrow, Option.filter_some, if_pos hclaim]
  refine ⟨dispatchMessage id (claimedMessage m workerId now), { db with
    outboxMessages := db.outboxMessages.insert id (claimedMessage m workerId now) }, ?_⟩
  unfold claimOne
  refine Returns.seq (a := db) (t := db) rfl ?_
  rw [hhit]
  rfl

/-- A limit that the table does not reach selects whatever is due and claimable. -/
theorem candidates_all {db : Db} {now expired : Instant} {limit : Nat} {id : Uuid}
    {m : OutboxMessage} (hrow : db.outboxMessages.lookup id = some m)
    (hdue : m.availableAt ≤ now) (hclaim : isClaimable expired m = true)
    (hlimit : db.outboxMessages.rows.length ≤ limit) :
    ∃ ids, Returns (candidates now expired limit) db ids db ∧ id ∈ ids := by
  have hselected := Table.mem_select (p := fun _ message =>
    decide (message.availableAt ≤ now) && isClaimable expired message).mpr
      ⟨hrow, by rw [decide_eq_true hdue, hclaim]; rfl⟩
  refine ⟨_, rfl, List.mem_map.mpr ⟨(id, m), ?_, rfl⟩⟩
  rw [List.take_of_length_le]
  · exact (List.perm_insertionSort _ _).symm.subset hselected
  · rw [List.length_insertionSort]
    exact (List.length_filter_le _ _).trans hlimit

end TransactionalOutbox

open TransactionalOutbox in
theorem Db.takeable {db : Db} {id : Uuid} {m : OutboxMessage} (lease : Duration)
    (hrow : db.outboxMessages.lookup id = some m) (hcoherent : m.Coherent)
    (hstate : m.state ≠ .published) : db.Takeable lease id := by
  have hunprocessed : m.processedAt = none := by
    by_contra hne
    exact hstate (hcoherent.published.mpr hne)
  have hclaimable : ∀ now, m.claimedAt.getD 0 + lease + 1 ≤ now →
      isClaimable (now - lease) m = true := by
    intro now hnow
    unfold isClaimable
    cases hs : m.state with
    | published => exact absurd hs hstate
    | pending => simp [hunprocessed]
    | claimed =>
      obtain ⟨claimedAt, hat⟩ := Option.ne_none_iff_exists'.mp (hcoherent.claimed hs).1
      rw [hat, Option.getD_some] at hnow
      have hlease : claimedAt < now - lease := Nat.lt_sub_of_add_lt hnow
      simp [hunprocessed, hat, hlease]
  refine ⟨max m.availableAt (m.claimedAt.getD 0 + lease + 1),
    fun now hnow limit workerId hlimit => ?_⟩
  have hclaim := hclaimable now ((Nat.le_max_right _ _).trans hnow)
  have hdue : m.availableAt ≤ now := (Nat.le_max_left _ _).trans hnow
  obtain ⟨ids, hcandidates, hid⟩ := candidates_all hrow hdue hclaim hlimit
  obtain ⟨answer, db', hone⟩ := claimOne_some workerId now hrow hclaim
  exact ⟨ids, answer, db', hcandidates, hid, hone⟩

/-! ## The law -/

/-- Nobody has released a candidate of a claim since the claim began. -/
def Undelayed (dep : Deployment) : Guard (system dep (dispatchers dep)) := fun cfg j _ o =>
  ∀ id ∈ Op.leases o, ∀ e ∈ j.history, ∀ m₀ m,
    e.before.db.outboxMessages.lookup id = some m₀ →
    cfg.world.db.outboxMessages.lookup id = some m → m.availableAt = m₀.availableAt

/-- The operation leases the message, whose row it finds as `m`. -/
def Leases (e : Event (system dep (dispatchers dep))) (id : Uuid) (m : OutboxMessage) : Prop :=
  e.before.db.outboxMessages.lookup id = some m ∧
    ∃ m', e.after.db.outboxMessages.lookup id = some m' ∧ m'.attempts ≠ m.attempts

/-- What holds of the messages after any run of the dispatchers from `w₀`. -/
structure Delivery (G : Guard (system dep (dispatchers dep))) (w₀ : World)
    (cfg : DispatchConfig dep) : Prop where
  processed : ∀ {id m}, cfg.world.db.outboxMessages.lookup id = some m →
    (m.processedAt ≠ none ↔ m.state = .published)
  /-- The workflow service has answered before a message counts as published. -/
  published : ∀ {id}, cfg.world.Published id → w₀.Published id ∨ id ∈ cfg.world.delivered
  final : ∀ {cfg' : DispatchConfig dep} {id}, Relation.ReflTransGen (Step G) cfg cfg' →
    cfg.world.Published id → cfg'.world.Published id
  kept : w₀.db.outboxMessages.Extends cfg.world.db.outboxMessages
  waiting : ∀ {id m}, cfg.world.db.outboxMessages.lookup id = some m → m.state ≠ .published →
    (m.state = .pending ∨ m.state = .claimed ∧ m.claimedAt ≠ none ∧ m.claimedBy ≠ none) ∧
      cfg.world.db.Takeable dep.leaseDuration id
  due : ∀ j ∈ cfg.jobs, ∀ e ∈ j.history, ∀ {id m}, Leases e id m → m.availableAt ≤ e.before.now

section Law

variable {G : Guard (system dep (dispatchers dep))} {w₀ : World} {cfg cfg' : DispatchConfig dep}

theorem dispatch_run (h : Reachable G w₀ cfg) (hi : w₀.Inv dep)
    (hrun : Relation.ReflTransGen (Step G) cfg cfg') :
    Relation.ReflTransGen (Step ((dispatching dep).lawful G)) cfg cfg' :=
  (dispatching dep).strengthen (fun _ _ _ _ => True) (fun _ _ _ _ => True) (fun _ _ => trivial)
    (fun c _ hi => TransactionalOutbox.dispatchBatch_meets c hi) h hi hrun

theorem dispatch_respects : Respects ((dispatching dep).lawful G) (World.Inv dep) :=
  ⟨fun hi hG hret => (Op.keeps hi hG.2.2.owes hret).1, fun hi => (Tick.keeps _ hi).1⟩

theorem dispatch_evolves :
    Evolves ((dispatching dep).lawful G) (World.Inv dep) World.Delivers :=
  ⟨.refl, .trans, fun hi hG hret => ((dispatching dep).op hi trivial hG.2.2 hret).2,
    fun hi => Tick.delivers _ hi⟩

/-- What has been published since the start has been delivered. -/
def Acknowledged (w₀ w : World) : Prop := ∀ id, w.Published id → w₀.Published id ∨ id ∈ w.delivered

theorem acknowledged_respects :
    Respects ((dispatching dep).lawful G) fun w => World.Inv dep w ∧ Acknowledged w₀ w := by
  refine dispatch_respects.and (fun hiw hacknowledged hG hret id hp => ?_)
    fun {t w} hacknowledged id hp => ?_
  · have hlater := (Op.keeps hiw hG.2.2.owes hret).2
    obtain hold | hacknowledges := (Op.moves hiw hG.2.2.dispatches hret).published hp
    · exact (hacknowledged id hold).imp_right fun hmem => hlater.delivered hmem
    · exact .inr (hlater.delivered (delivered_of_owes hG.2.2.owes hacknowledges))
  · cases t <;> exact hacknowledged id hp

/-- A message is leased when it is due: it was due when it was selected, and nobody has
delayed it since. -/
theorem leases_due (h : Reachable ((dispatching dep).lawful (Undelayed dep)) w₀ cfg) :
    ∀ j ∈ cfg.jobs, ∀ e ∈ j.history, ∀ {id m}, Leases e id m → m.availableAt ≤ e.before.now := by
  refine events_hold (fun {cfg j β o next} _ _ _ hG id m hleases => ?_) h
  obtain ⟨hundelayed, hiw, hmeets⟩ := hG
  obtain ⟨hrow, m', hrow', hne⟩ := hleases
  cases hc : commit ((system dep (dispatchers dep)).exec o) cfg.world with
  | mk answer w =>
    dsimp only at hrow'
    rw [hc] at hrow'
    cases answer with
    | error e =>
      rw [(commit_error hc).1, hrow] at hrow'
      cases hrow'
      exact absurd rfl hne
    | ok b =>
      have hmem := (Op.moves hiw hmeets.dispatches (commit_ok hc)).taken hrow hrow' hne
      obtain ⟨e, he, m₀, hrow₀, hdue⟩ := hmeets.due id hmem
      have hsame := hundelayed id hmem e he m₀ m hrow₀ hrow
      exact hsame.le.trans hdue

/-- **Outbox delivery.** As long as nobody releases a message under a claim that has
already selected it. -/
theorem outbox_delivery (h : Reachable (Undelayed dep) w₀ cfg) (hi : w₀.Inv dep) :
    Delivery (Undelayed dep) w₀ cfg := by
  have hlawful := dispatch_run .refl hi h
  have hinv := dispatch_respects.steps hlawful hi
  have hworld := dispatch_evolves.steps dispatch_respects hlawful hi
  refine ⟨fun hrow => (hinv.db.outbox.coherent hrow).published.symm,
    (acknowledged_respects.steps hlawful ⟨hi, fun _ hp => .inl hp⟩).2 _, fun hrun hp => ?_,
    hworld.rows, fun hrow hstate => ⟨?_, ?_⟩, ?_⟩
  · exact (dispatch_evolves.steps dispatch_respects (dispatch_run h hi hrun) hinv).stays _ hp
  · exact (hinv.db.outbox.coherent hrow).waiting hstate
  · exact Db.takeable _ hrow (hinv.db.outbox.coherent hrow) hstate
  · exact fun j hj e he _ _ hleases => leases_due hlawful j hj e he hleases

end Law

/-! ### A release under a claim -/

abbrev SmallDispatch : Machine := system .small (dispatchers .small)

/-- Run the dispatchers of a schedule on the outbox of `smallSubmission`, as long as every
operation passes a check. -/
def smallDispatch (check : Config SmallDispatch → (β : Type) → Op β → Bool)
    (schedule : List (Move SmallDispatch)) : Option (World × Config SmallDispatch) :=
  (smallRun smallSubmission).bind fun cfg =>
    (runIf check (Config.init (M := SmallDispatch) cfg.world) schedule).map fun after =>
      (cfg.world, after)

theorem smallDispatch_reachable {G : Guard SmallDispatch}
    {check : Config SmallDispatch → (β : Type) → Op β → Bool}
    (hcheck : ∀ {cfg j β} {o : Op β}, j ∈ cfg.jobs → check cfg β o = true → G cfg j β o)
    {schedule : List (Move SmallDispatch)} {w₀ : World} {cfg : Config SmallDispatch}
    (h : smallDispatch check schedule = some (w₀, cfg)) : w₀.Inv .small ∧ Reachable G w₀ cfg := by
  unfold smallDispatch at h
  generalize hstart : smallRun smallSubmission = start at h
  obtain ⟨start, rfl, h⟩ := Option.bind_eq_some_iff.mp h
  obtain ⟨after, hafter, h⟩ := Option.map_eq_some_iff.mp h
  obtain ⟨rfl, rfl⟩ := Prod.mk.inj h
  exact ⟨reachable_inv (smallRun_reachable hstart), runIf_steps hcheck hafter⟩

/-- The guard of the law, asked of every call. -/
def undelayed (cfg : Config SmallDispatch) (β : Type) (o : Op β) : Bool :=
  decide (∀ id ∈ Op.leases o, ∀ j ∈ cfg.jobs, ∀ e ∈ j.history,
    ∀ m₀ ∈ e.before.db.outboxMessages.lookup id, ∀ m ∈ cfg.world.db.outboxMessages.lookup id,
      m.availableAt = m₀.availableAt)

/-- Call 0 leases the message and publishes it. -/
def deliveredMessage : List (Move SmallDispatch) :=
  .start (M := SmallDispatch) (Dispatch.mk "first" 10 fun _ => true) :: acts SmallDispatch 0 7

theorem outbox_delivery_delivered :
    ((smallDispatch undelayed deliveredMessage).map fun c =>
      (c.2.world.db.outboxMessages.lookup 3).map (·.state)) = some (some .published) ∧
    ∀ w₀ cfg, smallDispatch undelayed deliveredMessage = some (w₀, cfg) →
      Delivery (Undelayed .small) w₀ cfg := by
  refine ⟨by decide +kernel, fun w₀ cfg h => ?_⟩
  obtain ⟨hi, hreach⟩ := smallDispatch_reachable (G := Undelayed .small)
    (fun {cfg j β o} hj hcheck id hid e he m₀ m hm₀ hm => by
      unfold undelayed at hcheck
      exact of_decide_eq_true hcheck id hid j hj e he m₀ hm₀ m hm) h
  exact outbox_delivery hreach hi

/-- Call 0 selects the message; call 1 leases it, fails to publish it and releases it for
five seconds; call 0 leases it at once. -/
def overtakenClaim : List (Move SmallDispatch) :=
  .start (M := SmallDispatch) (Dispatch.mk "first" 10 fun _ => true) :: acts SmallDispatch 0 2 ++
  .start (M := SmallDispatch) (Dispatch.mk "second" 10 fun _ => false) :: acts SmallDispatch 1 6 ++
  acts SmallDispatch 0 2

/-- The latest operation of call 0. -/
def firstStep (schedule : List (Move SmallDispatch)) : Option (Event SmallDispatch) :=
  (smallDispatch (fun _ _ _ => true) schedule).bind fun c =>
    (c.2.jobs[0]?).bind fun j => j.history.head?

theorem firstStep_mem {schedule : List (Move SmallDispatch)} {e : Event SmallDispatch}
    (h : firstStep schedule = some e) : ∃ w₀ cfg, w₀.Inv .small ∧
      Reachable (M := SmallDispatch) free w₀ cfg ∧ ∃ j ∈ cfg.jobs, e ∈ j.history := by
  unfold firstStep at h
  obtain ⟨⟨w₀, cfg⟩, hrun, h⟩ := Option.bind_eq_some_iff.mp h
  obtain ⟨j, hj, he⟩ := Option.bind_eq_some_iff.mp h
  obtain ⟨hi, hreach⟩ := smallDispatch_reachable (G := free) (fun _ _ => trivial) hrun
  exact ⟨w₀, cfg, hi, hreach, j, List.mem_of_getElem? hj, List.mem_of_head? he⟩

/-- The update of a claim does not look at the time of its message again. -/
theorem outbox_delivery_overtaken :
    ¬ ∀ (w₀ : World) (cfg : DispatchConfig .small), w₀.Inv .small → Reachable free w₀ cfg →
      Delivery free w₀ cfg := by
  intro hclaim
  have hstep : (firstStep overtakenClaim).map (fun e => (e.before.now,
      (e.before.db.outboxMessages.lookup 3).map fun m => (m.attempts, m.availableAt),
      (e.after.db.outboxMessages.lookup 3).map fun m => m.attempts)) =
      some (0, some (1, 5000000), some 2) := by
    decide +kernel
  obtain ⟨e, he, hstep⟩ := Option.map_eq_some_iff.mp hstep
  simp only [Prod.mk.injEq] at hstep
  obtain ⟨hnow, hbefore, hafter⟩ := hstep
  obtain ⟨m, hm, hbefore⟩ := Option.map_eq_some_iff.mp hbefore
  obtain ⟨m', hm', hafter⟩ := Option.map_eq_some_iff.mp hafter
  obtain ⟨hattempts, havailable⟩ := Prod.mk.inj hbefore
  obtain ⟨w₀, cfg, hi, hreach, j, hj, hmem⟩ := firstStep_mem he
  have hdue := @(hclaim w₀ cfg hi hreach).due j hj e hmem 3 m
    ⟨hm, m', hm', by rw [hattempts, hafter]; decide⟩
  rw [havailable, hnow] at hdue
  exact absurd hdue (by decide)

end CorpusKit
