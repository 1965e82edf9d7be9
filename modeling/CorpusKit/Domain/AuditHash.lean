import CorpusKit.Domain.Platform
import CorpusKit.Library.Json

/-! # The hash of an audit event

The canonical text of an audit event and the digest taken of it. Identifiers
are 128-bit, and an instant is its UTC calendar form, as the columns that hold
them are. -/

namespace CorpusKit

open Json

abbrev UuidBits := BitVec 128

/-- An aware timestamp in UTC, at the precision of its column. -/
structure UtcTime where
  year : Nat
  month : Nat
  day : Nat
  hour : Nat
  minute : Nat
  second : Nat
  microsecond : Nat
  date : 1 ≤ year ∧ year ≤ 9999 ∧ 1 ≤ month ∧ month ≤ 12 ∧ 1 ≤ day ∧ day ≤ 31
  clock : hour ≤ 23 ∧ minute ≤ 59 ∧ second ≤ 59 ∧ microsecond ≤ 999999
  deriving DecidableEq, Repr

/-! ## Texts -/

/-- A number in decimal, padded with zeros. -/
def padded (width n : Nat) : List Char :=
  List.replicate (width - (Nat.toDigits 10 n).length) '0' ++ Nat.toDigits 10 n

/-- `_canonical_timestamp`: `isoformat` in UTC with microseconds. -/
def canonicalTimestamp (t : UtcTime) : List Char :=
  padded 4 t.year ++ ('-' :: (padded 2 t.month ++ ('-' :: (padded 2 t.day ++ ('T' ::
    (padded 2 t.hour ++ (':' :: (padded 2 t.minute ++ (':' :: (padded 2 t.second ++ ('.' ::
      (padded 6 t.microsecond ++ "+00:00".toList))))))))))))

/-- `str` of a UUID: its hexadecimal digits in groups of 8, 4, 4, 4 and 12. -/
def uuidText (id : UuidBits) : List Char :=
  let h := hexDigits 32 id.toNat
  h.take 8 ++ '-' :: ((h.drop 8).take 4 ++ '-' :: ((h.drop 12).take 4 ++ '-' ::
    ((h.drop 16).take 4 ++ '-' :: h.drop 20)))

def AuditActorKind.value : AuditActorKind → List Char
  | .user => "user".toList
  | .service => "service".toList

def AuditAction.value : AuditAction → List Char
  | .projectCreated => "project.created".toList
  | .projectDeletionRequested => "project.deletion_requested".toList
  | .projectPurged => "project.purged".toList
  | .corpusCreated => "corpus.created".toList
  | .corpusVersionCreated => "corpus.version_created".toList
  | .runSubmitted => "run.submitted".toList
  | .runCancellationRequested => "run.cancellation_requested".toList
  | .runRetrySubmitted => "run.retry_submitted".toList
  | .runSucceeded => "run.succeeded".toList
  | .runFailed => "run.failed".toList
  | .runCancelled => "run.cancelled".toList
  | .artifactCreated => "artifact.created".toList
  | .artifactTombstoned => "artifact.tombstoned".toList
  | .artifactPurged => "artifact.purged".toList
  | .artifactAdopted => "artifact.adopted".toList
  | .runManifestCreated => "run.manifest_created".toList
  | .runReplaySubmitted => "run.replay_submitted".toList
  | .runReplayCompared => "run.replay_compared".toList
  | .quotaPolicyChanged => "quota.policy_changed".toList
  | .quotaReservationExpired => "quota.reservation_expired".toList

def AuditResourceType.value : AuditResourceType → List Char
  | .project => "project".toList
  | .corpus => "corpus".toList
  | .run => "run".toList
  | .artifact => "artifact".toList
  | .quotaPolicy => "quota-policy".toList
  | .quotaReservation => "quota-reservation".toList
  | .replay => "replay".toList

/-! ## The hashed payload -/

/-- `_SAFE_ACTOR`: a letter or digit, then at most 254 safe characters. -/
def isSafeActor (value : String) : Bool :=
  match value.toList with
  | [] => false
  | c :: rest => c.isAlphanum && decide (rest.length ≤ 254) &&
      rest.all fun c => c.isAlphanum || "@._:/+-".toList.contains c

def safeAuditActor (value : String) : Except Error String :=
  if isSafeActor value then .ok value else .error (.value "audit actor identifier is not safe")

def safeCorrelationId : Option String → Except Error (Option String)
  | none => .ok none
  | some value =>
    if isSafeCorrelation value then .ok (some value)
    else .error (.value "correlation ID is not safe")

/-- Metadata is a JSON object, given by its fields. -/
abbrev Metadata := List (List Char × Value)

/-- The metadata as a value, whatever the order of its fields. -/
def Metadata.canonical (metadata : Metadata) : Value := (Value.obj metadata).sorted

/-- `normalize_audit_metadata`: the object read back from its canonical text. -/
def normalizeAuditMetadata (action : AuditAction) (metadata : Metadata) : Except Error Metadata :=
  if metadata.any fun field => !(auditMetadataKeys action).contains (String.ofList field.1) then
    .error (.value "audit metadata contains fields outside the action allowlist")
  else if 2048 < (String.ofList (dumps (.obj metadata))).utf8ByteSize then
    .error (.value "audit metadata exceeds its size limit")
  else .ok ((sortedFields metadata).insertionSort fun a b => a.1 ≤ b.1)

/-- The hashed fields of an event, as given or as stored. -/
structure AuditFields where
  organizationId : UuidBits
  sequence : Nat
  actorKind : AuditActorKind
  actorId : String
  action : AuditAction
  resourceType : AuditResourceType
  resourceId : UuidBits
  requestId : Option String
  occurredAt : UtcTime
  details : Metadata
  previousHash : String

/-- The dictionary `audit_event_hash` encodes, its checked parts filled in. -/
def auditPayload (e : AuditFields) (actorId : String) (metadata : Metadata)
    (requestId : Option String) : Value :=
  .obj
    [("action".toList, .str e.action.value),
     ("actor_id".toList, .str actorId.toList),
     ("actor_kind".toList, .str e.actorKind.value),
     ("metadata".toList, .obj metadata),
     ("occurred_at".toList, .str (canonicalTimestamp e.occurredAt)),
     ("organization_id".toList, .str (uuidText e.organizationId)),
     ("previous_hash".toList, .str e.previousHash.toList),
     ("request_id".toList, match requestId with
        | some value => .str value.toList
        | none => .null),
     ("resource_id".toList, .str (uuidText e.resourceId)),
     ("resource_type".toList, .str e.resourceType.value),
     ("sequence".toList, .int e.sequence)]

/-- The text `audit_event_hash` hashes; the checks of its parts may raise. -/
def auditText (e : AuditFields) : Except Error (List Char) := do
  let actorId ← safeAuditActor e.actorId
  let metadata ← normalizeAuditMetadata e.action e.details
  let requestId ← safeCorrelationId e.requestId
  pure (dumps (auditPayload e actorId metadata requestId))

/-- `audit_event_hash`, with `sha256` for the hexadecimal digest of a text's UTF-8 form. -/
def auditEventHash (sha256 : List Char → String) (e : AuditFields) : Except Error String := do
  let text ← auditText e
  pure (sha256 text)

/-! ## The text determines the fields -/

theorem padded_value (width n : Nat) : Nat.ofDigitChars 10 (padded width n) 0 = n := by
  unfold padded
  rw [Nat.ofDigitChars_append, Nat.ofDigitChars_replicate_zero, Nat.mul_zero,
    Nat.ofDigitChars_ten_toDigits]

theorem padded_length {width n : Nat} (hwidth : 0 < width) (h : n < 10 ^ width) :
    (padded width n).length = width := by
  have := (Nat.length_toDigits_le_iff (by decide : 1 < 10) hwidth).mpr h
  unfold padded
  rw [List.length_append, List.length_replicate]
  omega

theorem padded_append_inj {width m n : Nat} {r r' : List Char} (hwidth : 0 < width)
    (hm : m < 10 ^ width) (hn : n < 10 ^ width) (h : padded width m ++ r = padded width n ++ r') :
    m = n ∧ r = r' := by
  obtain ⟨hpad, hr⟩ := List.append_inj h
    ((padded_length hwidth hm).trans (padded_length hwidth hn).symm)
  have hvalue := padded_value width m
  rw [hpad, padded_value] at hvalue
  exact ⟨hvalue.symm, hr⟩

theorem canonicalTimestamp_injective {t u : UtcTime}
    (h : canonicalTimestamp t = canonicalTimestamp u) : t = u := by
  obtain ⟨y, mo, d, hh, mi, sec, us, hdate, hclock⟩ := t
  obtain ⟨y', mo', d', hh', mi', sec', us', hdate', hclock'⟩ := u
  unfold canonicalTimestamp at h
  dsimp only at h
  obtain ⟨rfl, h₁⟩ := padded_append_inj (by decide) (by omega) (by omega) h
  obtain ⟨rfl, h₂⟩ := padded_append_inj (by decide) (by omega) (by omega) (List.cons.inj h₁).2
  obtain ⟨rfl, h₃⟩ := padded_append_inj (by decide) (by omega) (by omega) (List.cons.inj h₂).2
  obtain ⟨rfl, h₄⟩ := padded_append_inj (by decide) (by omega) (by omega) (List.cons.inj h₃).2
  obtain ⟨rfl, h₅⟩ := padded_append_inj (by decide) (by omega) (by omega) (List.cons.inj h₄).2
  obtain ⟨rfl, h₆⟩ := padded_append_inj (by decide) (by omega) (by omega) (List.cons.inj h₅).2
  obtain ⟨rfl, -⟩ := padded_append_inj (by decide) (by omega) (by omega) (List.cons.inj h₆).2
  rfl

theorem hexDigit_injective {m n : Nat} (hm : m < 16) (hn : n < 16) (h : hexDigit m = hexDigit n) :
    m = n := by
  have hall : ∀ m n : Fin 16, hexDigit m.val = hexDigit n.val → m = n := by decide
  exact congrArg Fin.val (hall ⟨m, hm⟩ ⟨n, hn⟩ h)

theorem hexDigits_mod {count m n : Nat} (h : hexDigits count m = hexDigits count n) :
    m % 16 ^ count = n % 16 ^ count := by
  induction count generalizing m n with
  | zero => rw [Nat.pow_zero, Nat.mod_one, Nat.mod_one]
  | succ count ih =>
    obtain ⟨hhigh, hlow⟩ := List.append_inj h
      ((hexDigits_length count _).trans (hexDigits_length count _).symm)
    have hmod := ih hhigh
    have hdigit := hexDigit_injective (Nat.mod_lt m (by decide)) (Nat.mod_lt n (by decide))
      (List.cons.inj hlow).1
    rw [Nat.pow_succ', Nat.mod_mul, Nat.mod_mul, hmod, hdigit]

theorem hexDigits_no_dash {count n : Nat} : ∀ c ∈ hexDigits count n, (c != '-') = true := by
  intro c hc
  obtain ⟨d, hd, rfl⟩ := hexDigits_mem hc
  have hall : ∀ d : Fin 16, (hexDigit d.val != '-') = true := by decide
  exact hall ⟨d, hd⟩

/-- Without its hyphens the text of a UUID is its hexadecimal form. -/
theorem uuidText_digits (id : UuidBits) :
    (uuidText id).filter (· != '-') = hexDigits 32 id.toNat := by
  unfold uuidText
  dsimp only
  have hdash : ∀ c ∈ hexDigits 32 id.toNat, (c != '-') = true := hexDigits_no_dash
  generalize hexDigits 32 id.toNat = h at hdash
  have hself : ∀ l : List Char, l ⊆ h → l.filter (· != '-') = l := fun l hl =>
    List.filter_eq_self.mpr fun c hc => hdash c (hl hc)
  have htake : ∀ m n, ((h.drop m).take n).filter (· != '-') = (h.drop m).take n := fun m n =>
    hself _ fun c hc => List.mem_of_mem_drop (List.mem_of_mem_take hc)
  have hfirst : (h.take 8).filter (· != '-') = h.take 8 :=
    hself _ fun c hc => List.mem_of_mem_take hc
  have hlast : (h.drop 20).filter (· != '-') = h.drop 20 :=
    hself _ fun c hc => List.mem_of_mem_drop hc
  have hskip : ∀ l : List Char, ('-' :: l).filter (· != '-') = l.filter (· != '-') := fun l => rfl
  have hjoin : ∀ m n, (h.drop m).take n ++ h.drop (m + n) = h.drop m := fun m n => by
    rw [← List.drop_drop, List.take_append_drop]
  simp only [List.filter_append, hskip, hfirst, htake, hlast]
  rw [hjoin 16 4, hjoin 12 4, hjoin 8 4, List.take_append_drop]

theorem uuidText_injective {a b : UuidBits} (h : uuidText a = uuidText b) : a = b := by
  have hdigits : hexDigits 32 a.toNat = hexDigits 32 b.toNat := by
    rw [← uuidText_digits, ← uuidText_digits, h]
  have hmod := hexDigits_mod hdigits
  have ha : a.toNat < 16 ^ 32 := a.isLt
  have hb : b.toNat < 16 ^ 32 := b.isLt
  rw [Nat.mod_eq_of_lt ha, Nat.mod_eq_of_lt hb] at hmod
  exact BitVec.eq_of_toNat_eq hmod

/-- Two events agree on the canonical value of every hashed field. -/
structure AuditFields.SameHashed (a b : AuditFields) : Prop where
  organizationId : a.organizationId = b.organizationId
  sequence : a.sequence = b.sequence
  actorKind : a.actorKind = b.actorKind
  actorId : a.actorId = b.actorId
  action : a.action = b.action
  resourceType : a.resourceType = b.resourceType
  resourceId : a.resourceId = b.resourceId
  requestId : a.requestId = b.requestId
  occurredAt : a.occurredAt = b.occurredAt
  details : a.details.canonical = b.details.canonical
  previousHash : a.previousHash = b.previousHash

theorem AuditActorKind.value_injective {a b : AuditActorKind} (h : a.value = b.value) : a = b := by
  revert h
  cases a <;> cases b <;> decide

theorem AuditAction.value_injective {a b : AuditAction} (h : a.value = b.value) : a = b := by
  revert h
  cases a <;> cases b <;> decide

theorem AuditResourceType.value_injective {a b : AuditResourceType} (h : a.value = b.value) :
    a = b := by
  revert h
  cases a <;> cases b <;> decide

/-- The dictionary is written in the order of its keys. -/
theorem auditPayload_sorted (e : AuditFields) (actorId : String) (metadata : Metadata)
    (requestId : Option String) :
    (auditPayload e actorId metadata requestId).sorted =
      auditPayload e actorId ((sortedFields metadata).insertionSort fun a b => a.1 ≤ b.1)
        requestId := by
  have hkeys : ["action".toList, "actor_id".toList, "actor_kind".toList, "metadata".toList,
      "occurred_at".toList, "organization_id".toList, "previous_hash".toList, "request_id".toList,
      "resource_id".toList, "resource_type".toList, "sequence".toList].Pairwise (· ≤ ·) := by
    decide
  unfold auditPayload
  cases requestId with
  | none =>
    simp only [Value.sorted, sortedFields]
    refine congrArg Value.obj (List.Pairwise.insertionSort_eq ?_)
    exact List.pairwise_map.mp hkeys
  | some value =>
    simp only [Value.sorted, sortedFields]
    refine congrArg Value.obj (List.Pairwise.insertionSort_eq ?_)
    exact List.pairwise_map.mp hkeys

theorem normalize_canonical {action : AuditAction} {metadata normalized : Metadata}
    (h : normalizeAuditMetadata action metadata = .ok normalized) :
    Value.obj normalized = Metadata.canonical metadata := by
  unfold normalizeAuditMetadata at h
  split at h
  · cases h
  · split at h
    · cases h
    · cases h
      rw [Metadata.canonical, Value.sorted]

theorem auditText_ok {e : AuditFields} {text : List Char} (h : auditText e = .ok text) :
    ∃ metadata : Metadata, Value.obj metadata = e.details.canonical ∧
      text = dumps (auditPayload e e.actorId metadata e.requestId) := by
  unfold auditText at h
  cases hactor : safeAuditActor e.actorId with
  | error x => rw [hactor] at h; cases h
  | ok actorId =>
    cases hmeta : normalizeAuditMetadata e.action e.details with
    | error x => rw [hactor, hmeta] at h; cases h
    | ok metadata =>
      cases hrequest : safeCorrelationId e.requestId with
      | error x => rw [hactor, hmeta, hrequest] at h; cases h
      | ok requestId =>
        rw [hactor, hmeta, hrequest] at h
        have hactorId : actorId = e.actorId := by
          unfold safeAuditActor at hactor
          split at hactor
          · cases hactor; rfl
          · cases hactor
        have hrequestId : requestId = e.requestId := by
          unfold safeCorrelationId at hrequest
          split at hrequest
          · next heq => cases hrequest; exact heq.symm
          · next heq =>
            split at hrequest
            · cases hrequest; exact heq.symm
            · cases hrequest
        subst hactorId hrequestId
        cases h
        exact ⟨metadata, normalize_canonical hmeta, rfl⟩

/-- **The hashed text determines the hashed fields.** -/
theorem auditText_injective {a b : AuditFields} {text : List Char} (ha : auditText a = .ok text)
    (hb : auditText b = .ok text) : a.SameHashed b := by
  obtain ⟨m, hm, rfl⟩ := auditText_ok ha
  obtain ⟨m', hm', htext⟩ := auditText_ok hb
  have hsorted := dumps_injective htext
  rw [auditPayload_sorted, auditPayload_sorted] at hsorted
  unfold auditPayload at hsorted
  simp only [Value.obj.injEq, List.cons.injEq, Prod.mk.injEq, true_and, and_true, Value.str.injEq,
    Value.int.injEq] at hsorted
  obtain ⟨haction, hactor, hkind, hmetadata, htime, horg, hprevious, hrequest, hresource, htype,
    hsequence⟩ := hsorted
  refine ⟨uuidText_injective horg, by exact_mod_cast hsequence,
    AuditActorKind.value_injective hkind, String.toList_inj.mp hactor,
    AuditAction.value_injective haction, AuditResourceType.value_injective htype,
    uuidText_injective hresource, ?_, canonicalTimestamp_injective htime, ?_,
    String.toList_inj.mp hprevious⟩
  · cases hra : a.requestId with
    | none =>
      cases hrb : b.requestId with
      | none => rfl
      | some y => rw [hra, hrb] at hrequest; cases hrequest
    | some x =>
      cases hrb : b.requestId with
      | none => rw [hra, hrb] at hrequest; cases hrequest
      | some y =>
        rw [hra, hrb] at hrequest
        exact congrArg some (String.toList_inj.mp (Value.str.inj hrequest))
  · have hobj : (Value.obj m).sorted = (Value.obj m').sorted := by
      rw [Value.sorted, Value.sorted, hmetadata]
    rw [hm, hm'] at hobj
    unfold Metadata.canonical at hobj ⊢
    rwa [sorted_sorted, sorted_sorted] at hobj

end CorpusKit
