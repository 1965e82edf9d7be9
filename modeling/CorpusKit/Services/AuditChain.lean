import CorpusKit.Domain.AuditHash
import Mathlib.Data.List.Induction
import Mathlib.Data.Set.Function

/-! # The audit chain

`AuditWriter.append` and `AuditWriter.verify` on the rows they read and write,
hashes included. Every append holds its organization's head, so appends of one
organization are serial. `sha256` is the hexadecimal digest of a text. -/

namespace CorpusKit

namespace AuditChain

/-- `AUDIT_GENESIS_HASH`. -/
def genesisHash : String := String.ofList (List.replicate 64 '0')

/-- `_HASH`: 64 lowercase hexadecimal digits. -/
def isHash (value : String) : Bool :=
  decide (value.toList.length = 64) &&
    value.toList.all fun c => decide (48 ≤ c.toNat ∧ c.toNat ≤ 57) ||
      decide (97 ≤ c.toNat ∧ c.toNat ≤ 102)

structure Head where
  lastSequence : Nat
  lastHash : String
  deriving DecidableEq, Repr

/-- A stored event: its hashed columns, and its hash. -/
structure Event where
  fields : AuditFields
  eventHash : String

/-- The audit tables. -/
structure Tables where
  heads : List (UuidBits × Head)
  events : List Event

def Tables.head? (tables : Tables) (organizationId : UuidBits) : Option Head :=
  (tables.heads.find? fun e => e.1 == organizationId).map (·.2)

/-- The arguments of `append`. -/
structure Entry where
  organizationId : UuidBits
  actorKind : AuditActorKind
  actorId : String
  action : AuditAction
  resourceType : AuditResourceType
  resourceId : UuidBits
  requestId : Option String
  metadata : Metadata
  occurredAt : UtcTime

def setHead (tables : Tables) (organizationId : UuidBits) (head : Head) : Tables :=
  { tables with heads := (organizationId, head) :: tables.heads }

/-- `_ensure_platform_rows`, as far as the audit head goes. -/
def ensureHead (tables : Tables) (organizationId : UuidBits) : Tables :=
  match tables.head? organizationId with
  | some _ => tables
  | none => setHead tables organizationId ⟨0, genesisHash⟩

/-- The columns of the event appended at `head`. -/
def Entry.fields (entry : Entry) (head : Head) (metadata : Metadata) (requestId : Option String) :
    AuditFields where
  organizationId := entry.organizationId
  sequence := head.lastSequence + 1
  actorKind := entry.actorKind
  actorId := entry.actorId
  action := entry.action
  resourceType := entry.resourceType
  resourceId := entry.resourceId
  requestId
  occurredAt := entry.occurredAt
  details := metadata
  previousHash := head.lastHash

/-- `AuditWriter.append`. The platform rows are created only for some identities
(`provisions`); the insert respects the uniqueness of the sequence. -/
def append (sha256 : List Char → String) (provisions : Bool) (tables : Tables) (entry : Entry) :
    Except Error Tables := do
  let metadata ← normalizeAuditMetadata entry.action entry.metadata
  let requestId ← safeCorrelationId entry.requestId
  let tables := if provisions then ensureHead tables entry.organizationId else tables
  match tables.head? entry.organizationId with
  | none => .error (.runtime "audit chain head is unavailable")
  | some head =>
    if isHash head.lastHash then
      let fields := entry.fields head metadata requestId
      let eventHash ← auditEventHash sha256 fields
      if tables.events.any fun event => event.fields.organizationId == entry.organizationId &&
          event.fields.sequence == fields.sequence then
        .error (.integrity "uq_audit_events_organization_sequence")
      else
        .ok (setHead { tables with events := tables.events ++ [⟨fields, eventHash⟩] }
          entry.organizationId ⟨fields.sequence, eventHash⟩)
    else .error (.runtime "audit chain head is unavailable")

/-- The loop of `verify`: `none` where it returns false, else where it ended. -/
def verifyEvents (sha256 : List Char → String) :
    String → Nat → List Event → Except Error (Option (String × Nat))
  | previousHash, expectedSequence, [] => .ok (some (previousHash, expectedSequence))
  | previousHash, expectedSequence, event :: events =>
    if event.fields.sequence ≠ expectedSequence ∨ event.fields.previousHash ≠ previousHash then
      .ok none
    else do
      let expectedHash ← auditEventHash sha256 event.fields
      if event.eventHash ≠ expectedHash then .ok none
      else verifyEvents sha256 event.eventHash (expectedSequence + 1) events

/-- The events of an organization, by sequence. -/
def eventsOf (tables : Tables) (organizationId : UuidBits) : List Event :=
  (tables.events.filter fun event => event.fields.organizationId == organizationId).insertionSort
    fun a b => a.fields.sequence ≤ b.fields.sequence

/-- `AuditWriter.verify`. -/
def verify (sha256 : List Char → String) (tables : Tables) (organizationId : UuidBits) :
    Except Error Bool :=
  match tables.head? organizationId with
  | none => .ok false
  | some head => do
    match ← verifyEvents sha256 genesisHash 1 (eventsOf tables organizationId) with
    | none => .ok false
    | some (previousHash, expectedSequence) =>
      .ok (head.lastSequence == expectedSequence - 1 && head.lastHash == previousHash)

/-! ## Runs -/

/-- What happens to the tables: an organization's platform rows are created, or
an event is appended. -/
inductive Request
  | provision (organizationId : UuidBits)
  | append (provisions : Bool) (entry : Entry)

/-- A request that raises leaves the tables as they were. -/
def handle (sha256 : List Char → String) (tables : Tables) : Request → Tables
  | .provision organizationId => ensureHead tables organizationId
  | .append provisions entry =>
    match append sha256 provisions tables entry with
    | .ok tables' => tables'
    | .error _ => tables

def Tables.empty : Tables := ⟨[], []⟩

def runRequests (sha256 : List Char → String) (requests : List Request) : Tables :=
  requests.foldl (handle sha256) .empty

/-! ## Completeness -/

/-- The events of one organization as appended: they verify up to its head. -/
structure Linked (sha256 : List Char → String) (tables : Tables) (organizationId : UuidBits)
    (head : Head) : Prop where
  ordered : (tables.events.filter fun event =>
    event.fields.organizationId == organizationId).Pairwise
      fun a b => a.fields.sequence ≤ b.fields.sequence
  bounded : ∀ event ∈ tables.events, event.fields.organizationId = organizationId →
    event.fields.sequence ≤ head.lastSequence
  verified : verifyEvents sha256 genesisHash 1 (tables.events.filter fun event =>
    event.fields.organizationId == organizationId) =
      .ok (some (head.lastHash, head.lastSequence + 1))

/-- Every organization is linked to its head; without one it has no events. -/
def Sound (sha256 : List Char → String) (tables : Tables) : Prop :=
  ∀ organizationId, match tables.head? organizationId with
    | none => ∀ event ∈ tables.events, event.fields.organizationId ≠ organizationId
    | some head => Linked sha256 tables organizationId head

theorem head?_setHead (tables : Tables) (org organizationId : UuidBits) (head : Head) :
    (setHead tables org head).head? organizationId =
      if org = organizationId then some head else tables.head? organizationId := by
  unfold setHead Tables.head?
  rw [List.find?_cons]
  by_cases h : org = organizationId
  · subst h
    simp
  · have hne : (org == organizationId) = false := beq_eq_false_iff_ne.mpr h
    rw [hne, if_neg h]

theorem verifyEvents_append (sha256 : List Char → String) {previous last : String}
    {expected next : Nat} {events : List Event} {event : Event}
    (h : verifyEvents sha256 previous expected events = .ok (some (last, next)))
    (hsequence : event.fields.sequence = next) (hprevious : event.fields.previousHash = last)
    (hhash : auditEventHash sha256 event.fields = .ok event.eventHash) :
    verifyEvents sha256 previous expected (events ++ [event]) =
      .ok (some (event.eventHash, next + 1)) := by
  induction events generalizing previous expected with
  | nil =>
    have hend : previous = last ∧ expected = next := by
      simpa [verifyEvents] using h
    have hgo : ¬ (event.fields.sequence ≠ expected ∨ event.fields.previousHash ≠ previous) := by
      rintro (hne | hne)
      · exact hne (hsequence.trans hend.2.symm)
      · exact hne (hprevious.trans hend.1.symm)
    rw [List.nil_append, verifyEvents, if_neg hgo, hhash]
    show (if event.eventHash ≠ event.eventHash then _ else _) = _
    rw [if_neg (fun hne => hne rfl), hend.2]
    rfl
  | cons first events ih =>
    rw [List.cons_append, verifyEvents]
    rw [verifyEvents] at h
    by_cases hgo : first.fields.sequence ≠ expected ∨ first.fields.previousHash ≠ previous
    · rw [if_pos hgo] at h
      cases h
    · rw [if_neg hgo] at h ⊢
      cases hfirst : auditEventHash sha256 first.fields with
      | error e => rw [hfirst] at h; cases h
      | ok expectedHash =>
        rw [hfirst] at h
        show (if first.eventHash ≠ expectedHash then _ else _) = _
        have h' : (if first.eventHash ≠ expectedHash then Except.ok none
            else verifyEvents sha256 first.eventHash (expected + 1) events) =
              .ok (some (last, next)) := h
        by_cases hbad : first.eventHash ≠ expectedHash
        · rw [if_pos hbad] at h'
          cases h'
        · rw [if_neg hbad] at h' ⊢
          exact ih h'

theorem verify_linked {sha256 : List Char → String} {tables : Tables} {organizationId : UuidBits}
    {head : Head} (hhead : tables.head? organizationId = some head)
    (h : Linked sha256 tables organizationId head) :
    verify sha256 tables organizationId = .ok true := by
  have hevents : eventsOf tables organizationId = tables.events.filter fun event =>
      event.fields.organizationId == organizationId :=
    List.Pairwise.insertionSort_eq h.ordered
  unfold verify
  rw [hhead, hevents]
  dsimp only
  rw [h.verified]
  show Except.ok (_ && _) = _
  simp

theorem sound_empty (sha256 : List Char → String) : Sound sha256 .empty := by
  intro organizationId
  show ∀ event ∈ ([] : List Event), _
  intro event hevent
  cases hevent

/-- A new head of an organization moves nothing else. -/
theorem Sound.elsewhere {sha256 : List Char → String} {tables : Tables} (h : Sound sha256 tables)
    {org organizationId : UuidBits} (hne : org ≠ organizationId) (head : Head) :
    match (setHead tables org head).head? organizationId with
    | none => ∀ event ∈ tables.events, event.fields.organizationId ≠ organizationId
    | some head => Linked sha256 tables organizationId head := by
  rw [head?_setHead, if_neg hne]
  exact h organizationId

theorem Sound.ensureHead {sha256 : List Char → String} {tables : Tables} (h : Sound sha256 tables)
    (org : UuidBits) : Sound sha256 (ensureHead tables org) := by
  cases hhead : tables.head? org with
  | some head =>
    have hsame : AuditChain.ensureHead tables org = tables := by
      unfold AuditChain.ensureHead
      rw [hhead]
    rw [hsame]
    exact h
  | none =>
    have hset : AuditChain.ensureHead tables org = setHead tables org ⟨0, genesisHash⟩ := by
      unfold AuditChain.ensureHead
      rw [hhead]
    rw [hset]
    intro organizationId
    by_cases heq : org = organizationId
    · subst heq
      rw [head?_setHead, if_pos rfl]
      have hnone := h org
      rw [hhead] at hnone
      have hfilter : (tables.events.filter fun event =>
          event.fields.organizationId == org) = [] :=
        List.filter_eq_nil_iff.mpr fun event hevent => by simpa using hnone event hevent
      refine ⟨?_, fun event hevent horg => absurd horg (hnone event hevent), ?_⟩
      · show (tables.events.filter _).Pairwise _
        rw [hfilter]
        exact List.Pairwise.nil
      · show verifyEvents sha256 genesisHash 1 (tables.events.filter _) = _
        rw [hfilter, verifyEvents]
    · have hother := h.elsewhere heq ⟨0, genesisHash⟩
      cases hcase : (setHead tables org ⟨0, genesisHash⟩).head? organizationId with
      | none => rw [hcase] at hother; exact hother
      | some head =>
        rw [hcase] at hother
        exact ⟨hother.ordered, hother.bounded, hother.verified⟩

/-- What a successful append did. -/
structure Appended (sha256 : List Char → String) (entry : Entry) (tables tables' : Tables) :
    Prop where
  step : ∃ (head : Head) (event : Event), tables.head? entry.organizationId = some head ∧
    event.fields.organizationId = entry.organizationId ∧
    event.fields.sequence = head.lastSequence + 1 ∧ event.fields.previousHash = head.lastHash ∧
    auditEventHash sha256 event.fields = .ok event.eventHash ∧
    tables' = setHead { tables with events := tables.events ++ [event] } entry.organizationId
      ⟨event.fields.sequence, event.eventHash⟩

theorem append_ok {sha256 : List Char → String} {provisions : Bool} {tables tables' : Tables}
    {entry : Entry} (h : append sha256 provisions tables entry = .ok tables') :
    Appended sha256 entry
      (if provisions then ensureHead tables entry.organizationId else tables) tables' := by
  unfold append at h
  cases hmeta : normalizeAuditMetadata entry.action entry.metadata with
  | error e => rw [hmeta] at h; cases h
  | ok metadata =>
    cases hrequest : safeCorrelationId entry.requestId with
    | error e => rw [hmeta, hrequest] at h; cases h
    | ok requestId =>
      rw [hmeta, hrequest] at h
      generalize (if provisions then ensureHead tables entry.organizationId else tables) = before
        at h ⊢
      dsimp only [bind, Except.bind] at h
      cases hhead : before.head? entry.organizationId with
      | none => rw [hhead] at h; cases h
      | some head =>
        rw [hhead] at h
        dsimp only at h
        split at h
        · cases hhash : auditEventHash sha256 (entry.fields head metadata requestId) with
          | error e => rw [hhash] at h; cases h
          | ok eventHash =>
            rw [hhash] at h
            dsimp only at h
            split at h
            · cases h
            · cases h
              exact ⟨head, ⟨entry.fields head metadata requestId, eventHash⟩, hhead, rfl, rfl,
                rfl, hhash, rfl⟩
        · cases h

theorem Sound.appended {sha256 : List Char → String} {tables tables' : Tables} {entry : Entry}
    (h : Sound sha256 tables) (happ : Appended sha256 entry tables tables') :
    Sound sha256 tables' := by
  obtain ⟨head, event, hhead, horg, hsequence, hprevious, hhash, rfl⟩ := happ.step
  have hlinked := h entry.organizationId
  rw [hhead] at hlinked
  intro organizationId
  rw [head?_setHead]
  by_cases heq : entry.organizationId = organizationId
  · subst heq
    rw [if_pos rfl]
    have hfilter : ((tables.events ++ [event]).filter fun event =>
        event.fields.organizationId == entry.organizationId) =
        (tables.events.filter fun event =>
          event.fields.organizationId == entry.organizationId) ++ [event] := by
      have hsame : (event.fields.organizationId == entry.organizationId) = true := by
        rw [horg]
        exact beq_self_eq_true _
      rw [List.filter_append, List.filter_singleton, hsame, cond_true]
    refine ⟨?_, ?_, ?_⟩
    · show ((tables.events ++ [event]).filter _).Pairwise _
      rw [hfilter]
      refine List.pairwise_append.mpr ⟨hlinked.ordered, List.pairwise_singleton _ _, ?_⟩
      intro a ha b hb
      obtain rfl := List.mem_singleton.mp hb
      have hmem := List.mem_filter.mp ha
      have := hlinked.bounded a hmem.1 (by simpa using hmem.2)
      omega
    · intro a ha haorg
      show a.fields.sequence ≤ event.fields.sequence
      rcases List.mem_append.mp ha with hold | hnew
      · have := hlinked.bounded a hold haorg
        omega
      · rw [List.mem_singleton.mp hnew]
    · show verifyEvents sha256 genesisHash 1 ((tables.events ++ [event]).filter _) = _
      rw [hfilter, verifyEvents_append sha256 hlinked.verified hsequence hprevious hhash, hsequence]
  · rw [if_neg heq]
    have hother := h organizationId
    have hhead' : ({ tables with events := tables.events ++ [event] } : Tables).head?
        organizationId = tables.head? organizationId := rfl
    rw [hhead']
    have hskip : ((tables.events ++ [event]).filter fun event =>
        event.fields.organizationId == organizationId) =
        tables.events.filter fun event => event.fields.organizationId == organizationId := by
      have hne : (event.fields.organizationId == organizationId) = false := by
        rw [horg]
        exact beq_eq_false_iff_ne.mpr heq
      rw [List.filter_append, List.filter_singleton, hne]
      simp
    cases hcase : tables.head? organizationId with
    | none =>
      rw [hcase] at hother
      intro a ha
      rcases List.mem_append.mp ha with hold | hnew
      · exact hother a hold
      · rw [List.mem_singleton.mp hnew, horg]
        exact heq
    | some other =>
      rw [hcase] at hother
      refine ⟨?_, ?_, ?_⟩
      · show ((tables.events ++ [event]).filter _).Pairwise _
        rw [hskip]
        exact hother.ordered
      · intro a ha haorg
        rcases List.mem_append.mp ha with hold | hnew
        · exact hother.bounded a hold haorg
        · rw [List.mem_singleton.mp hnew, horg] at haorg
          exact absurd haorg heq
      · show verifyEvents sha256 genesisHash 1 ((tables.events ++ [event]).filter _) = _
        rw [hskip]
        exact hother.verified

theorem Sound.handle {sha256 : List Char → String} {tables : Tables} (h : Sound sha256 tables)
    (request : Request) : Sound sha256 (handle sha256 tables request) := by
  cases request with
  | provision organizationId => exact h.ensureHead organizationId
  | append provisions entry =>
    unfold AuditChain.handle
    dsimp only
    split
    · next tables' hok =>
      refine Sound.appended ?_ (append_ok hok)
      cases provisions with
      | true => exact h.ensureHead entry.organizationId
      | false => exact h
    · exact h

/-- Every run leaves every organization's events linked to its head. -/
theorem sound_run (sha256 : List Char → String) (requests : List Request) :
    Sound sha256 (runRequests sha256 requests) := by
  have hfold : ∀ tables, Sound sha256 tables →
      Sound sha256 (requests.foldl (AuditChain.handle sha256) tables) := by
    induction requests with
    | nil => intro tables h; exact h
    | cons request requests ih => intro tables h; exact ih _ (h.handle request)
  exact hfold _ (sound_empty sha256)

/-! ## Tamper evidence -/

theorem verifyEvents_last {sha256 : List Char → String} {previous last : String}
    {expected next : Nat} {events : List Event} {event : Event}
    (h : verifyEvents sha256 previous expected (events ++ [event]) = .ok (some (last, next))) :
    verifyEvents sha256 previous expected events =
        .ok (some (event.fields.previousHash, event.fields.sequence)) ∧
      auditEventHash sha256 event.fields = .ok last ∧ next = event.fields.sequence + 1 := by
  induction events generalizing previous expected with
  | nil =>
    rw [List.nil_append, verifyEvents] at h
    by_cases hgo : event.fields.sequence ≠ expected ∨ event.fields.previousHash ≠ previous
    · rw [if_pos hgo] at h
      cases h
    · rw [if_neg hgo] at h
      rw [not_or, not_not, not_not] at hgo
      cases hhash : auditEventHash sha256 event.fields with
      | error e => rw [hhash] at h; cases h
      | ok expectedHash =>
        rw [hhash] at h
        have h' : (if event.eventHash ≠ expectedHash then Except.ok none
            else verifyEvents sha256 event.eventHash (expected + 1) []) =
              .ok (some (last, next)) := h
        by_cases hbad : event.eventHash ≠ expectedHash
        · rw [if_pos hbad] at h'
          cases h'
        · rw [if_neg hbad] at h'
          rw [not_not] at hbad
          have hend : event.eventHash = last ∧ expected + 1 = next := by
            simpa [verifyEvents] using h'
          rw [verifyEvents, hgo.1, hgo.2, ← hbad, hend.1]
          exact ⟨rfl, rfl, hend.2.symm⟩
  | cons first events ih =>
    rw [List.cons_append, verifyEvents] at h
    rw [verifyEvents]
    by_cases hgo : first.fields.sequence ≠ expected ∨ first.fields.previousHash ≠ previous
    · rw [if_pos hgo] at h
      cases h
    · rw [if_neg hgo] at h ⊢
      cases hfirst : auditEventHash sha256 first.fields with
      | error e => rw [hfirst] at h; cases h
      | ok expectedHash =>
        rw [hfirst] at h
        have h' : (if first.eventHash ≠ expectedHash then Except.ok none
            else verifyEvents sha256 first.eventHash (expected + 1) (events ++ [event])) =
              .ok (some (last, next)) := h
        show (if first.eventHash ≠ expectedHash then Except.ok none
            else verifyEvents sha256 first.eventHash (expected + 1) events) = _ ∧ _
        by_cases hbad : first.eventHash ≠ expectedHash
        · rw [if_pos hbad] at h'
          cases h'
        · rw [if_neg hbad] at h' ⊢
          exact ih h'

theorem verifyEvents_length {sha256 : List Char → String} {previous last : String}
    {expected next : Nat} {events : List Event}
    (h : verifyEvents sha256 previous expected events = .ok (some (last, next))) :
    next = expected + events.length := by
  induction events using List.reverseRecOn generalizing last next with
  | nil =>
    have hend : previous = last ∧ expected = next := by simpa [verifyEvents] using h
    exact hend.2.symm
  | append_singleton events event ih =>
    obtain ⟨hfront, -, rfl⟩ := verifyEvents_last h
    have := ih hfront
    rw [List.length_append, List.length_singleton]
    omega

/-- The texts that were hashed for the events of a list. -/
def hashedTexts (events : List Event) : Set (List Char) :=
  {text | ∃ event ∈ events, auditText event.fields = .ok text}

/-- Two lists of events that end at the same hash agree from the end to the start. -/
theorem verifyEvents_commits {sha256 : List Char → String} {texts : Set (List Char)}
    (hcollision : Set.InjOn sha256 texts) {previous last : String} {expected next : Nat}
    {xs ys : List Event} (hxs : hashedTexts xs ⊆ texts) (hys : hashedTexts ys ⊆ texts)
    (hx : verifyEvents sha256 previous expected xs = .ok (some (last, next)))
    (hy : verifyEvents sha256 previous expected ys = .ok (some (last, next))) :
    List.Forall₂ (fun x y => x.fields.SameHashed y.fields) xs ys := by
  induction xs using List.reverseRecOn generalizing ys last next with
  | nil =>
    have hlen := (verifyEvents_length hx).symm.trans (verifyEvents_length hy)
    have hnil : ys = [] := List.eq_nil_of_length_eq_zero (by
      rw [List.length_nil] at hlen
      omega)
    rw [hnil]
    exact List.Forall₂.nil
  | append_singleton xs x ih =>
    have hlen := (verifyEvents_length hx).symm.trans (verifyEvents_length hy)
    rcases List.eq_nil_or_concat ys with rfl | ⟨ys', y, rfl⟩
    · rw [List.length_append, List.length_singleton, List.length_nil] at hlen
      omega
    · rw [List.concat_eq_append] at hy hys ⊢
      obtain ⟨hx', hxhash, -⟩ := verifyEvents_last hx
      obtain ⟨hy', hyhash, -⟩ := verifyEvents_last hy
      have hsame : x.fields.SameHashed y.fields := by
        unfold auditEventHash at hxhash hyhash
        cases hxt : auditText x.fields with
        | error e => rw [hxt] at hxhash; cases hxhash
        | ok xt =>
          cases hyt : auditText y.fields with
          | error e => rw [hyt] at hyhash; cases hyhash
          | ok yt =>
            rw [hxt] at hxhash
            rw [hyt] at hyhash
            have hdigest : sha256 xt = sha256 yt :=
              (Except.ok.inj hxhash).trans (Except.ok.inj hyhash).symm
            have heq := hcollision (hxs ⟨x, by simp, hxt⟩) (hys ⟨y, by simp, hyt⟩) hdigest
            exact auditText_injective hxt (heq ▸ hyt)
      rw [← hsame.previousHash, ← hsame.sequence] at hy'
      refine List.rel_append (ih ?_ ?_ hx' hy') (List.Forall₂.cons hsame List.Forall₂.nil)
      · rintro text ⟨e, he, ht⟩
        exact hxs ⟨e, List.mem_append_left _ he, ht⟩
      · rintro text ⟨e, he, ht⟩
        exact hys ⟨e, List.mem_append_left _ he, ht⟩

theorem verify_true {sha256 : List Char → String} {tables : Tables} {organizationId : UuidBits}
    (h : verify sha256 tables organizationId = .ok true) :
    ∃ head, tables.head? organizationId = some head ∧ ∃ next,
      verifyEvents sha256 genesisHash 1 (eventsOf tables organizationId) =
        .ok (some (head.lastHash, next)) ∧ head.lastSequence = next - 1 := by
  unfold verify at h
  cases hhead : tables.head? organizationId with
  | none => rw [hhead] at h; cases h
  | some head =>
    rw [hhead] at h
    dsimp only at h
    cases hevents : verifyEvents sha256 genesisHash 1 (eventsOf tables organizationId) with
    | error e => rw [hevents] at h; cases h
    | ok result =>
      rw [hevents] at h
      cases result with
      | none => cases h
      | some ending =>
        obtain ⟨last, next⟩ := ending
        have hboth : (head.lastSequence == next - 1 && head.lastHash == last) = true :=
          Except.ok.inj h
        rw [Bool.and_eq_true, beq_iff_eq, beq_iff_eq] at hboth
        exact ⟨head, rfl, next, by rw [hboth.2], hboth.1⟩

theorem hashedTexts_eventsOf (tables : Tables) (organizationId : UuidBits) :
    hashedTexts (eventsOf tables organizationId) ⊆ hashedTexts tables.events := by
  rintro text ⟨event, hevent, htext⟩
  rw [eventsOf, List.mem_insertionSort] at hevent
  exact ⟨event, (List.mem_filter.mp hevent).1, htext⟩

/-- **The audit chain is complete and tamper-evident.** In every reachable state
every organization that has a chain head verifies; and two event tables that
verify against the same head, with no collision among the texts hashed for
them, have the same length and agree on every hashed field, row by row. -/
theorem audit_chain (sha256 : List Char → String) :
    (∀ requests organizationId,
      ((runRequests sha256 requests).head? organizationId).isSome = true →
        verify sha256 (runRequests sha256 requests) organizationId = .ok true) ∧
    ∀ (organizationId : UuidBits) (left right : Tables),
      left.head? organizationId = right.head? organizationId →
      Set.InjOn sha256 (hashedTexts left.events ∪ hashedTexts right.events) →
      verify sha256 left organizationId = .ok true →
      verify sha256 right organizationId = .ok true →
      (eventsOf left organizationId).length = (eventsOf right organizationId).length ∧
        List.Forall₂ (fun x y => x.fields.SameHashed y.fields) (eventsOf left organizationId)
          (eventsOf right organizationId) := by
  constructor
  · intro requests organizationId hhead
    obtain ⟨head, hsome⟩ := Option.isSome_iff_exists.mp hhead
    have hlinked := sound_run sha256 requests organizationId
    rw [hsome] at hlinked
    exact verify_linked hsome hlinked
  · intro organizationId left right hheads hcollision hleft hright
    obtain ⟨head, hhead, next, hx, hnext⟩ := verify_true hleft
    obtain ⟨head', hhead', next', hy, hnext'⟩ := verify_true hright
    rw [hheads, hhead'] at hhead
    obtain rfl := Option.some.inj hhead
    have hlx := verifyEvents_length hx
    have hly := verifyEvents_length hy
    have hsame : next' = next := by omega
    rw [hsame] at hy
    refine ⟨by omega, verifyEvents_commits hcollision ?_ ?_ hx hy⟩
    · exact (hashedTexts_eventsOf left organizationId).trans Set.subset_union_left
    · exact (hashedTexts_eventsOf right organizationId).trans Set.subset_union_right

/-- A run is submitted by a user. -/
def submittedEntry : Entry where
  organizationId := 1
  actorKind := .user
  actorId := "user:ada@example.org"
  action := .runSubmitted
  resourceType := .run
  resourceId := 2
  requestId := some "req-1"
  metadata := [("kind".toList, .str "phonemize".toList), ("attempt".toList, .int 1),
    ("quota_class".toList, .str "cpu".toList)]
  occurredAt := ⟨2024, 1, 2, 3, 4, 5, 6, by decide, by decide⟩

/-- A worker ends it. -/
def endedEntry (action : AuditAction) : Entry where
  organizationId := 1
  actorKind := .service
  actorId := "service:worker"
  action
  resourceType := .run
  resourceId := 2
  requestId := none
  metadata := [("kind".toList, .str "phonemize".toList)]
  occurredAt := ⟨2024, 1, 2, 3, 4, 7, 0, by decide, by decide⟩

def submittedHash : String := "df62bb45603a9928c2ef80e793384484451d164985f920622f621c3cb17499d3"

def succeededHash : String := "18a8353d152144b06a0622d2bf402a6ea1460981d21fa9580e9a5a6f0c786dfe"

def failedHash : String := "6c21835a2da7adc7ab023d70eb09adab8678025c80af9d24f934bcdfab703b2a"

/-- The text that is hashed for an event. -/
def sampleText (fields : AuditFields) : List Char :=
  match auditText fields with
  | .ok text => text
  | .error _ => []

def submittedFields : AuditFields :=
  submittedEntry.fields ⟨0, genesisHash⟩ submittedEntry.metadata submittedEntry.requestId

def endedFields (action : AuditAction) : AuditFields :=
  (endedEntry action).fields ⟨1, submittedHash⟩ (endedEntry action).metadata none

def sampleTexts : List (List Char) :=
  [sampleText submittedFields, sampleText (endedFields .runSucceeded),
    sampleText (endedFields .runFailed)]

/-- SHA-256 of these texts. -/
def sampleSha256 (text : List Char) : String :=
  ((sampleTexts.zip [submittedHash, succeededHash, failedHash]).lookup text).getD ""

/-- A run that succeeded. -/
def sampleTables : Tables :=
  runRequests sampleSha256 [.append true submittedEntry, .append true (endedEntry .runSucceeded)]

/-- The same rows in another order. -/
def reorderedTables : Tables := { sampleTables with events := sampleTables.events.reverse }

/-- The run seems to have failed, and the hash of the changed event is its own. -/
def tamperedTables : Tables :=
  { sampleTables with
    events := [⟨submittedFields, submittedHash⟩, ⟨endedFields .runFailed, failedHash⟩] }

theorem sample_hashes : (sampleTables.head? 1).isSome = true ∧
    (eventsOf sampleTables 1).map (·.fields.action) = [.runSubmitted, .runSucceeded] ∧
    (eventsOf tamperedTables 1).map (·.fields.action) = [.runSubmitted, .runFailed] ∧
    verify sampleSha256 reorderedTables 1 = .ok true ∧
    (∀ event ∈ sampleTables.events, sampleText event.fields ∈ sampleTexts) ∧
    ∀ x ∈ sampleTexts, ∀ y ∈ sampleTexts, sampleSha256 x = sampleSha256 y → x = y := by
  decide +kernel

/-- The heads do not depend on the events. -/
theorem head?_events (tables : Tables) (events : List Event) (organizationId : UuidBits) :
    tables.head? organizationId = ({ tables with events } : Tables).head? organizationId := rfl

theorem hashedTexts_sample {events : List Event}
    (h : ∀ event ∈ events, sampleText event.fields ∈ sampleTexts) :
    ∀ text ∈ hashedTexts events, text ∈ sampleTexts := by
  rintro text ⟨event, hevent, htext⟩
  have hmem := h event hevent
  rwa [sampleText, htext] at hmem

/-- Two rows in any order tell of the same events; a changed one is noticed. -/
theorem audit_chain_sample :
    verify sampleSha256 sampleTables 1 = .ok true ∧
      List.Forall₂ (fun x y => x.fields.SameHashed y.fields) (eventsOf sampleTables 1)
        (eventsOf reorderedTables 1) ∧
      verify sampleSha256 tamperedTables 1 ≠ .ok true := by
  obtain ⟨hhead, hactions, hchanged, hreordered, htexts, hinjective⟩ := sample_hashes
  obtain ⟨hcomplete, hcommits⟩ := audit_chain sampleSha256
  have hverify : verify sampleSha256 sampleTables 1 = .ok true :=
    hcomplete [.append true submittedEntry, .append true (endedEntry .runSucceeded)] 1 hhead
  have hsample := hashedTexts_sample htexts
  have hcollision : ∀ events : List Event, (∀ text ∈ hashedTexts events, text ∈ sampleTexts) →
      Set.InjOn sampleSha256 (hashedTexts sampleTables.events ∪ hashedTexts events) := by
    intro events hevents x hx y hy
    exact hinjective x (hx.elim (hsample x) (hevents x)) y (hy.elim (hsample y) (hevents y))
  refine ⟨hverify, ?_, fun htampered => ?_⟩
  · have hsame : ∀ text ∈ hashedTexts reorderedTables.events, text ∈ sampleTexts := by
      refine hashedTexts_sample fun event hevent => htexts event ?_
      rwa [show reorderedTables.events = sampleTables.events.reverse by rw [reorderedTables],
        List.mem_reverse] at hevent
    exact (hcommits 1 sampleTables reorderedTables (head?_events sampleTables _ 1)
      (hcollision reorderedTables.events hsame) hverify hreordered).2
  · have htexts : ∀ text ∈ hashedTexts tamperedTables.events, text ∈ sampleTexts := by
      refine hashedTexts_sample fun event hevent => ?_
      simp only [tamperedTables, List.mem_cons, List.not_mem_nil, or_false] at hevent
      rcases hevent with rfl | rfl <;> simp [sampleTexts]
    have hsame := (hcommits 1 sampleTables tamperedTables (head?_events sampleTables _ 1)
      (hcollision tamperedTables.events htexts) hverify htampered).2
    have hmap : (eventsOf sampleTables 1).map (·.fields.action) =
        (eventsOf tamperedTables 1).map (·.fields.action) := by
      rw [← List.forall₂_eq_eq_eq, List.forall₂_map_left_iff, List.forall₂_map_right_iff]
      exact hsame.imp fun _ _ h => h.action
    rw [hactions, hchanged] at hmap
    cases hmap

/-- Before its head exists, an organization does not verify. -/
theorem audit_chain_without_head :
    ¬ ∀ (sha256 : List Char → String) (requests : List Request) (organizationId : UuidBits),
      verify sha256 (runRequests sha256 requests) organizationId = .ok true := by
  intro h
  have hempty := h (fun _ => genesisHash) [] 0
  cases hempty

end AuditChain

end CorpusKit
