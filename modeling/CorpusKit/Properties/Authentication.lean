import CorpusKit.Auth.Verifier
import CorpusKit.Library.Pacing

/-! # The keys tokens are verified with

Requests enter, wait for each other, fetch documents, fail and are cancelled in any
order. The cache is what the log of the refreshes makes of it. -/

namespace CorpusKit.Auth

open Json

/-- The refresh brought keys. -/
def Refresh.Fetched (r : Refresh) : Prop := ∃ metadata uri document,
  r.outcome = .fetched metadata uri document

def Refresh.isAbandoned (r : Refresh) : Bool :=
  match r.outcome with
  | .abandoned => true
  | _ => false

namespace OidcJwtVerifier

variable {κ : Type} (v : OidcJwtVerifier κ)

/-! ## What the keys are -/

/-- The value is not given, or it is this text. -/
def AbsentOr (text : List Char) (value : Option Value) : Prop :=
  value = none ∨ value = some .null ∨ value = some (.str text)

/-- The entry is an RSA key for verifying RS256 signatures. -/
structure ForSigning (entry : Fields) (jwk : Jwk κ) : Prop where
  keyType : jwk.keyType = some (.str "RSA".toList)
  publicKeyUse : AbsentOr "sig".toList jwk.publicKeyUse
  algorithm : AbsentOr "RS256".toList (entry.lookup "alg".toList)
  operations : ∀ value, entry.lookup "key_ops".toList = some value → value ≠ .null →
    ∃ operations, value = .arr operations ∧ .str "verify".toList ∈ operations

/-- The document has an entry that is this key, for verifying signatures. -/
def Publishes (document : Fields) (keyId : List Char) (key : κ) : Prop :=
  ∃ raw entry jwk, document.lookup "keys".toList = some (.arr raw) ∧ Value.obj entry ∈ raw ∧
    entry.lookup "kid".toList = some (.str keyId) ∧ v.fromDict entry = some jwk ∧ jwk.key = key ∧
    ForSigning entry jwk

variable {v} {parsed parsed' : List (List Char × κ)} {keyId : List Char} {key : κ}

theorem isText_eq {text : List Char} {value : Option Value} (h : isText text value = true) :
    value = some (.str text) := by
  unfold isText at h
  split at h
  · rw [beq_iff_eq] at h
    rw [h]
  · cases h

theorem inSet_true {text : List Char} {value : Option Value} (h : inSet text value = some true) :
    AbsentOr text value := by
  unfold inSet at h
  split at h
  · exact .inl rfl
  · exact .inr (.inl rfl)
  · rw [Option.some.injEq, beq_iff_eq] at h
    rw [h]
    exact .inr (.inr rfl)
  all_goals cases h

theorem allowsVerify_true {value : Value} (h : allowsVerify (some value) = true)
    (hnull : value ≠ .null) : ∃ operations, value = .arr operations ∧
      .str "verify".toList ∈ operations := by
  cases value with
  | null => exact absurd rfl hnull
  | arr operations =>
    obtain ⟨operation, hmem, htext⟩ := List.any_eq_true.mp h
    obtain rfl := Option.some.inj (isText_eq htext)
    exact ⟨operations, rfl, hmem⟩
  | _ => cases h

theorem isSigningKey_true {jwk : Jwk κ} (h : isSigningKey jwk = some true) :
    jwk.keyType = some (.str "RSA".toList) ∧ AbsentOr "sig".toList jwk.publicKeyUse := by
  unfold isSigningKey at h
  split at h
  · next hrsa => exact ⟨isText_eq hrsa, inSet_true h⟩
  · cases h

theorem keyOf_eq_some {entry : Fields} (h : v.keyOf entry = some (some key)) :
    ∃ jwk, v.fromDict entry = some jwk ∧ jwk.key = key ∧ ForSigning entry jwk := by
  unfold keyOf at h
  split at h
  · cases h
  · cases h
  · next halgorithm =>
    split at h
    · next hverify =>
      split at h
      · cases h
      · next jwk hjwk =>
        obtain ⟨signing, hsigning, hkey⟩ := Option.map_eq_some_iff.mp h
        split at hkey
        · next htrue =>
          subst htrue
          rw [Option.some.injEq] at hkey
          obtain ⟨hrsa, huse⟩ := isSigningKey_true hsigning
          refine ⟨jwk, hjwk, hkey, hrsa, huse, inSet_true halgorithm, fun value hvalue => ?_⟩
          rw [hvalue] at hverify
          exact allowsVerify_true hverify
        · cases hkey
    · cases h

/-- One round adds at most the key of its entry. -/
theorem readKey_mem {value : Value} (h : v.readKey parsed value = some parsed')
    {entry : List Char × κ} (he : entry ∈ parsed') :
    entry ∈ parsed ∨ ∃ fields, value = .obj fields ∧
      fields.lookup "kid".toList = some (.str entry.1) ∧ v.keyOf fields = some (some entry.2) := by
  unfold readKey at h
  split at h
  · next fields =>
    split at h
    · next keyId hkid =>
      split at h
      · cases h
        exact .inl he
      · split at h
        · obtain ⟨-, -, rfl⟩ := Option.map_eq_some_iff.mp h
          exact .inl he
        · obtain ⟨found, hfound, rfl⟩ := Option.map_eq_some_iff.mp h
          refine (List.mem_append.mp he).imp_right fun hnew => ?_
          rw [Option.mem_toList] at hnew
          obtain ⟨key, rfl, rfl⟩ := Option.map_eq_some_iff.mp hnew
          exact ⟨fields, rfl, hkid, hfound⟩
    · cases h
      exact .inl he
  · cases h
    exact .inl he

theorem foldlM_readKey_mem {raw : List Value} (h : raw.foldlM v.readKey parsed = some parsed')
    {entry : List Char × κ} (he : entry ∈ parsed') :
    entry ∈ parsed ∨ ∃ fields, Value.obj fields ∈ raw ∧
      fields.lookup "kid".toList = some (.str entry.1) ∧ v.keyOf fields = some (some entry.2) := by
  induction raw generalizing parsed with
  | nil =>
    cases h
    exact .inl he
  | cons value rest ih =>
    rw [List.foldlM_cons] at h
    obtain ⟨next, hnext, hrest⟩ := Option.bind_eq_some_iff.mp h
    obtain hold | ⟨fields, hmem, hkey⟩ := ih hrest
    · refine (readKey_mem hnext hold).imp_right ?_
      rintro ⟨fields, rfl, hkey⟩
      exact ⟨fields, List.mem_cons_self, hkey⟩
    · exact .inr ⟨fields, List.mem_cons_of_mem _ hmem, hkey⟩

theorem mem_of_lookup {l : List (List Char × κ)} (h : l.lookup keyId = some key) :
    (keyId, key) ∈ l := by
  induction l with
  | nil => cases h
  | cons e rest ih =>
    obtain ⟨k, x⟩ := e
    rw [List.lookup_cons] at h
    split at h
    · next heq =>
      cases h
      rw [beq_iff_eq.mp heq]
      exact List.mem_cons_self
    · exact List.mem_cons_of_mem _ (ih h)

/-- A key looked up in a document's keys is published there. -/
theorem jwksKeys_publishes {document : Fields} (h : v.jwksKeys document = some parsed)
    (hkey : parsed.lookup keyId = some key) : v.Publishes document keyId key := by
  unfold jwksKeys at h
  split at h
  · next raw hraw =>
    split at h
    · cases h
    · obtain ⟨hfold, -⟩ := Option.filter_eq_some_iff.mp h
      obtain hnil | ⟨fields, hmem, hkid, hfound⟩ := foldlM_readKey_mem hfold (mem_of_lookup hkey)
      · cases hnil
      · obtain ⟨jwk, hjwk, heq, hsigning⟩ := keyOf_eq_some hfound
        exact ⟨raw, fields, jwk, hraw, hmem, hkid, hjwk, heq, hsigning⟩
  · cases h

theorem jwksUri_eq_some {metadata : Fields} {uri : List Char} (h : v.jwksUri metadata = some uri) :
    metadata.lookup "issuer".toList = some (.str v.issuer) ∧
      metadata.lookup "jwks_uri".toList = some (.str uri) ∧ v.originOf uri = v.originOf v.issuer := by
  unfold jwksUri at h
  split at h
  · next hissuer =>
    split at h
    · next value hvalue =>
      split at h
      · next hvalid =>
        cases h
        rw [Bool.and_eq_true, beq_iff_eq] at hvalid
        exact ⟨isText_eq hissuer, hvalue, hvalid.2⟩
      · cases h
    · cases h
  · cases h

/-! ## The log of the refreshes -/

variable (v)

/-- What a refresh makes of the cache. -/
def applied (r : Refresh) (cache : KeyCache κ) : KeyCache κ :=
  match r.outcome with
  | .running => { cache with lastRefreshAttempt := some r.startedAt }
  | .abandoned => { cache with lastRefreshAttempt := some r.startedAt }
  | .failed => { cache with lastRefreshAttempt := some r.startedAt, lastRefreshFailed := true }
  | .fetched _ _ document => ⟨(v.jwksKeys document).getD [], some r.startedAt, some r.startedAt, false⟩

def replay (refreshes : List Refresh) : KeyCache κ := refreshes.foldr v.applied .empty

/-- The time between two refreshes the first of which is not abandoned. -/
def gap : Nat := min (seconds v.refreshCooldownSeconds) (seconds v.cacheSeconds)

variable {v} {refreshes : List Refresh}

theorem replay_attempt (r : Refresh) (refreshes : List Refresh) :
    (v.replay (r :: refreshes)).lastRefreshAttempt = some r.startedAt := by
  rw [replay, List.foldr_cons, applied]
  split <;> rfl

theorem replay_fetched {t : Instant} {i : Nat} {metadata document : Fields} {uri : List Char}
    {keys : List (List Char × κ)} (h : v.jwksKeys document = some keys) :
    v.replay (⟨t, i, .fetched metadata uri document⟩ :: refreshes) = ⟨keys, some t, some t, false⟩ := by
  rw [replay, List.foldr_cons, applied]
  dsimp only
  rw [h]
  rfl

/-- The keys of the cache are those of the latest refresh that brought keys. -/
theorem replay_latest {t : Instant} (h : (v.replay refreshes).refreshedAt = some t) :
    ∃ newer r older metadata uri document, refreshes = newer ++ r :: older ∧
      (∀ n ∈ newer, ¬ n.Fetched) ∧ r.outcome = .fetched metadata uri document ∧
      r.startedAt = t ∧ (v.replay refreshes).keys = (v.jwksKeys document).getD [] := by
  induction refreshes with
  | nil => cases h
  | cons r rest ih =>
    have hlater (hnot : ¬ r.Fetched) (heq : (v.replay (r :: rest)).refreshedAt =
        (v.replay rest).refreshedAt ∧ (v.replay (r :: rest)).keys = (v.replay rest).keys) :
        ∃ newer r' older metadata uri document, r :: rest = newer ++ r' :: older ∧
          (∀ n ∈ newer, ¬ n.Fetched) ∧ r'.outcome = .fetched metadata uri document ∧
          r'.startedAt = t ∧ (v.replay (r :: rest)).keys = (v.jwksKeys document).getD [] := by
      obtain ⟨newer, r', older, metadata, uri, document, rfl, hnewer, hfetched, hstart, hkeys⟩ :=
        ih (heq.1.symm.trans h)
      refine ⟨r :: newer, r', older, metadata, uri, document, rfl, ?_, hfetched, hstart,
        heq.2.trans hkeys⟩
      intro n hn
      obtain rfl | hn := List.mem_cons.mp hn
      · exact hnot
      · exact hnewer n hn
    cases hout : r.outcome with
    | running =>
      refine hlater (fun ⟨_, _, _, hf⟩ => by rw [hout] at hf; cases hf) ?_
      rw [replay, List.foldr_cons, applied, hout]
      exact ⟨rfl, rfl⟩
    | failed =>
      refine hlater (fun ⟨_, _, _, hf⟩ => by rw [hout] at hf; cases hf) ?_
      rw [replay, List.foldr_cons, applied, hout]
      exact ⟨rfl, rfl⟩
    | abandoned =>
      refine hlater (fun ⟨_, _, _, hf⟩ => by rw [hout] at hf; cases hf) ?_
      rw [replay, List.foldr_cons, applied, hout]
      exact ⟨rfl, rfl⟩
    | fetched metadata uri document =>
      have hnow : v.replay (r :: rest) =
          ⟨(v.jwksKeys document).getD [], some r.startedAt, some r.startedAt, false⟩ := by
        rw [replay, List.foldr_cons, applied, hout]
      rw [hnow] at h ⊢
      cases h
      exact ⟨[], r, rest, metadata, uri, document, rfl, nofun, hout, rfl, rfl⟩

/-! ## The invariant -/

variable (v)

/-- What holds of a request: its refresh is the running one, and it holds the lock. -/
structure Tracked (s : State κ) (i : Nat) (a : Authentication) : Prop where
  token : v.keyId a.token = some a.keyId ∨ a.phase = .answered (.error .authentication)
  refreshing : ∀ t, a.phase.startedAt? = some t → s.lock = some i ∧
    ∃ rest, s.refreshes = ⟨t, i, .running⟩ :: rest ∧ ∀ r ∈ rest, r.outcome ≠ .running
  located : ∀ t metadata uri, a.phase = .jwks t metadata uri → v.jwksUri metadata = some uri

structure Inv (s : State κ) : Prop where
  cache : s.cache = v.replay s.refreshes
  past : ∀ r ∈ s.refreshes, r.startedAt ≤ s.now
  spaced : Pacing.Spaced Refresh.startedAt Refresh.isAbandoned v.gap s.refreshes
  fetched : ∀ r ∈ s.refreshes, ∀ metadata uri document, r.outcome = .fetched metadata uri document →
    v.jwksUri metadata = some uri ∧ (v.jwksKeys document).isSome
  idle : s.lock = none → ∀ r ∈ s.refreshes, r.outcome ≠ .running
  held : ∀ i, s.lock = some i → ∃ a t, s.requests[i]? = some a ∧ a.phase.startedAt? = some t
  requests : ∀ i a, s.requests[i]? = some a → Tracked v s i a

variable {v} {s : State κ} {i j : Nat} {a : Authentication}

theorem inv_initial : v.Inv State.initial where
  cache := rfl
  past := nofun
  spaced := .nil
  fetched := nofun
  idle _ := nofun
  held := nofun
  requests _ _ h := by cases h

/-- A request after one has moved on. -/
theorem getElem?_moved {phase : Phase} {b : Authentication} (h : (s.moved i phase)[j]? = some b) :
    ∃ a, s.requests[j]? = some a ∧ (j = i ∧ b = { a with phase } ∨ j ≠ i ∧ b = a) := by
  rw [State.moved, List.getElem?_modify] at h
  obtain ⟨a, ha, rfl⟩ := Option.map_eq_some_iff.mp h
  refine ⟨a, ha, ?_⟩
  by_cases hij : i = j
  · exact .inl ⟨hij.symm, if_pos hij⟩
  · exact .inr ⟨fun h => hij h.symm, if_neg hij⟩

theorem getElem?_moved_self {phase : Phase} (h : s.requests[i]? = some a) :
    (s.moved i phase)[i]? = some { a with phase } := by
  rw [State.moved, List.getElem?_modify, h]
  simp

/-- Only the request with the lock is refreshing. -/
theorem Inv.not_refreshing (h : v.Inv s) (hlock : s.lock = some i) (hj : s.requests[j]? = some a)
    (hne : j ≠ i) : a.phase.startedAt? = none := by
  cases hphase : a.phase.startedAt? with
  | none => rfl
  | some t =>
    obtain ⟨hheld, -⟩ := (h.requests j a hj).refreshing t hphase
    rw [hlock, Option.some.injEq] at hheld
    exact absurd hheld.symm hne

/-- A request that is not refreshing asks little of the state. -/
theorem Tracked.other {s' : State κ} (h : Tracked v s j a) (hphase : a.phase.startedAt? = none) :
    Tracked v s' j a where
  token := h.token
  refreshing t ht := by
    rw [hphase] at ht
    cases ht
  located := h.located

/-! ## Steps -/

theorem getElem?_concat {l : List Authentication} {b : Authentication}
    (h : (l ++ [a])[i]? = some b) : l[i]? = some b ∨ b = a := by
  rw [List.getElem?_append] at h
  split at h
  · exact .inl h
  · exact .inr (List.mem_singleton.mp (List.mem_of_getElem? h))

/-- A request enters that runs no refresh. -/
theorem Inv.add (h : v.Inv s) (hphase : a.phase.startedAt? = none)
    (htoken : v.keyId a.token = some a.keyId ∨ a.phase = .answered (.error .authentication))
    (hlocated : ∀ t metadata uri, a.phase ≠ .jwks t metadata uri) :
    v.Inv { s with requests := s.requests ++ [a] } where
  cache := h.cache
  past := h.past
  spaced := h.spaced
  fetched := h.fetched
  idle := h.idle
  held i hi := by
    obtain ⟨b, t, hb, ht⟩ := h.held i hi
    exact ⟨b, t, List.getElem?_append_left (List.getElem?_eq_some_iff.mp hb).1 ▸ hb, ht⟩
  requests i b hb := by
    obtain hold | hnew := getElem?_concat hb
    · obtain ⟨htoken, hrefreshing, hlocated⟩ := h.requests i b hold
      exact ⟨htoken, hrefreshing, hlocated⟩
    · subst hnew
      refine ⟨htoken, fun t ht => ?_, fun t metadata uri hjwks => absurd hjwks (hlocated _ _ _)⟩
      rw [hphase] at ht
      cases ht

/-- A request that runs no refresh moves on without one. -/
theorem Inv.move (h : v.Inv s) (ha : s.requests[i]? = some a) (hidle : a.phase.startedAt? = none)
    {phase : Phase} (hphase : phase.startedAt? = none) (hkey : v.keyId a.token = some a.keyId) :
    v.Inv { s with requests := s.moved i phase } where
  cache := h.cache
  past := h.past
  spaced := h.spaced
  fetched := h.fetched
  idle := h.idle
  held j hj := by
    obtain ⟨b, t, hb, ht⟩ := h.held j hj
    refine ⟨b, t, ?_, ht⟩
    have hne : i ≠ j := by
      rintro rfl
      rw [ha, Option.some.injEq] at hb
      rw [hb, ht] at hidle
      cases hidle
    dsimp only
    rw [State.moved, List.getElem?_modify, hb, Option.map_eq_map, Option.map_some, if_neg hne]
  requests j b hb := by
    obtain ⟨c, hc, ⟨rfl, rfl⟩ | ⟨-, rfl⟩⟩ := getElem?_moved hb
    · rw [ha, Option.some.injEq] at hc
      subst hc
      refine ⟨.inl hkey, fun t ht => ?_, fun t metadata uri hjwks => ?_⟩
      · rw [hphase] at ht
        cases ht
      · dsimp only at hjwks
        rw [hjwks] at hphase
        cases hphase
    · obtain ⟨htoken, hrefreshing, hlocated⟩ := h.requests j b hc
      exact ⟨htoken, hrefreshing, hlocated⟩

/-- **A refresh ends.** -/
theorem Inv.release (h : v.Inv s) (ha : s.requests[i]? = some a) {t : Instant}
    (hrefresh : a.phase.startedAt? = some t) {phase : Phase} (hphase : phase.startedAt? = none)
    (hkey : v.keyId a.token = some a.keyId) {outcome : Outcome} (houtcome : outcome ≠ .running)
    (hfetched : ∀ metadata uri document, outcome = .fetched metadata uri document →
      v.jwksUri metadata = some uri ∧ (v.jwksKeys document).isSome)
    {cache : KeyCache κ} (hcache : ∀ rest, s.cache = v.replay (⟨t, i, .running⟩ :: rest) →
      cache = v.replay (⟨t, i, outcome⟩ :: rest)) :
    v.Inv { s with
      cache, lock := none, requests := s.moved i phase, refreshes := s.settled outcome } := by
  obtain ⟨hlock, rest, hrest, hsettled⟩ := (h.requests i a ha).refreshing t hrefresh
  have hrefreshes : s.settled outcome = ⟨t, i, outcome⟩ :: rest := by
    rw [State.settled, hrest]
    rfl
  have hspaced := h.spaced
  have hpast := h.past
  have hlog := h.fetched
  rw [hrest] at hspaced hpast hlog
  constructor
  · dsimp only
    rw [hrefreshes]
    exact hcache rest (hrest ▸ h.cache)
  · dsimp only
    rw [hrefreshes]
    intro r hr
    obtain rfl | hr := List.mem_cons.mp hr
    · exact hpast ⟨t, i, .running⟩ List.mem_cons_self
    · exact hpast r (List.mem_cons_of_mem _ hr)
  · dsimp only
    rw [hrefreshes]
    exact .cons (List.pairwise_cons.mp hspaced).1 (List.pairwise_cons.mp hspaced).2
  · dsimp only
    rw [hrefreshes]
    intro r hr
    obtain rfl | hr := List.mem_cons.mp hr
    · exact hfetched
    · exact hlog r (List.mem_cons_of_mem _ hr)
  · intro _
    dsimp only
    rw [hrefreshes]
    intro r hr
    obtain rfl | hr := List.mem_cons.mp hr
    · exact houtcome
    · exact hsettled r hr
  · nofun
  · intro j b hb
    obtain ⟨c, hc, ⟨rfl, rfl⟩ | ⟨hne, rfl⟩⟩ := getElem?_moved hb
    · rw [ha, Option.some.injEq] at hc
      subst hc
      refine ⟨.inl hkey, fun t ht => ?_, fun t metadata uri hjwks => ?_⟩
      · rw [hphase] at ht
        cases ht
      · dsimp only at hjwks
        rw [hjwks] at hphase
        cases hphase
    · exact (h.requests j b hc).other (h.not_refreshing hlock hc hne)

theorem Inv.tick (h : v.Inv s) (elapsed : Nat) (wall : Instant) :
    v.Inv { s with now := s.now + elapsed, wall } where
  cache := h.cache
  past r hr := Nat.le_trans (h.past r hr) (Nat.le_add_right _ _)
  spaced := h.spaced
  fetched := h.fetched
  idle := h.idle
  held := h.held
  requests i a ha := by
    obtain ⟨htoken, hrefreshing, hlocated⟩ := h.requests i a ha
    exact ⟨htoken, hrefreshing, hlocated⟩

theorem Inv.enter (h : v.Inv s) (token : Option String) : v.Inv (v.enter s token) := by
  unfold OidcJwtVerifier.enter
  split
  · exact h.add rfl (.inr rfl) nofun
  · next keyId hkey =>
    split
    · exact h.add rfl (.inl hkey) nofun
    · exact h.add rfl (.inl hkey) nofun

/-- A refresh that starts is far enough from the earlier ones. -/
theorem Inv.spaced_start (h : v.Inv s) (hlock : s.lock = none)
    (hallowed : ¬ (v.cooldownActive s.cache s.now &&
      (s.cache.lastRefreshFailed || v.isFresh s.cache s.now)) = true) :
    Pacing.Spaced Refresh.startedAt Refresh.isAbandoned v.gap
      (⟨s.now, i, .running⟩ :: s.refreshes) := by
  refine .cons (fun r hr => ⟨h.past r hr, fun hnot => ?_⟩) h.spaced
  dsimp only
  have hgapCooldown : v.gap ≤ seconds v.refreshCooldownSeconds := Nat.min_le_left _ _
  have hgapCache : v.gap ≤ seconds v.cacheSeconds := Nat.min_le_right _ _
  have hcache := h.cache
  have hspaced := h.spaced
  have hidle := h.idle hlock
  have hpast := h.past
  cases hlog : s.refreshes with
  | nil =>
    rw [hlog] at hr
    cases hr
  | cons last rest =>
    rw [hlog] at hr hcache hspaced hidle hpast
    have hlast := hpast last List.mem_cons_self
    obtain rfl | hr := List.mem_cons.mp hr
    · -- Its own outcome says what the cache knows of the latest refresh.
      have hattempt := replay_attempt (v := v) r rest
      rw [← hcache] at hattempt
      have hcooldown (hactive : ¬ v.cooldownActive s.cache s.now = true) :
          r.startedAt + v.gap ≤ s.now := by
        have hlong : ¬ s.now - r.startedAt < seconds v.refreshCooldownSeconds := by
          intro hshort
          rw [cooldownActive, hattempt, Option.any_some] at hactive
          exact hactive (decide_eq_true hshort)
        have hgap : v.gap ≤ s.now - r.startedAt := Nat.le_trans hgapCooldown (Nat.not_lt.mp hlong)
        exact Nat.add_le_of_le_sub' hlast hgap
      rw [Bool.and_eq_true, Bool.or_eq_true, not_and_or, not_or] at hallowed
      obtain hactive | ⟨hfailed, hstale⟩ := hallowed
      · exact hcooldown hactive
      · cases hout : r.outcome with
        | running => exact absurd hout (hidle r List.mem_cons_self)
        | abandoned =>
          rw [Refresh.isAbandoned, hout] at hnot
          cases hnot
        | failed =>
          rw [hcache, replay, List.foldr_cons, applied, hout] at hfailed
          exact absurd rfl hfailed
        | fetched metadata uri document =>
          rw [hcache, replay, List.foldr_cons, applied, hout] at hstale
          simp only [isFresh, Option.any_some, decide_eq_true_eq, Nat.not_le] at hstale
          omega
    · obtain ⟨-, hgap⟩ := (List.pairwise_cons.mp hspaced).1 r hr
      exact Nat.le_trans (hgap hnot) hlast

theorem Inv.acquire (h : v.Inv s) (ha : s.requests[i]? = some a) (hwaiting : a.phase = .waiting)
    (hlock : s.lock = none) : v.Inv (v.acquire s i a) := by
  have hidle : a.phase.startedAt? = none := by rw [hwaiting]; rfl
  have hkey : v.keyId a.token = some a.keyId := by
    obtain hkey | hanswered := (h.requests i a ha).token
    · exact hkey
    · rw [hwaiting] at hanswered
      cases hanswered
  unfold OidcJwtVerifier.acquire
  split
  · exact h.move ha hidle rfl hkey
  · split
    · exact h.move ha hidle rfl hkey
    · next hallowed =>
      have hspaced := h.spaced_start (i := i) hlock hallowed
      constructor
      · dsimp only
        rw [replay, List.foldr_cons, applied, h.cache, replay]
      · intro r hr
        obtain rfl | hr := List.mem_cons.mp hr
        · exact Nat.le_refl _
        · exact h.past r hr
      · exact hspaced
      · intro r hr
        obtain rfl | hr := List.mem_cons.mp hr
        · nofun
        · exact h.fetched r hr
      · nofun
      · intro j hj
        cases hj
        exact ⟨_, s.now, getElem?_moved_self ha, rfl⟩
      · intro j b hb
        obtain ⟨c, hc, ⟨rfl, rfl⟩ | ⟨hne, rfl⟩⟩ := getElem?_moved hb
        · rw [ha, Option.some.injEq] at hc
          subst hc
          refine ⟨.inl hkey, fun t ht => ?_, nofun⟩
          cases ht
          exact ⟨rfl, s.refreshes, rfl, h.idle hlock⟩
        · refine (h.requests j b hc).other ?_
          cases hphase : b.phase.startedAt? with
          | none => rfl
          | some t =>
            obtain ⟨hheld, -⟩ := (h.requests j b hc).refreshing t hphase
            rw [hlock] at hheld
            cases hheld

theorem Inv.failRefresh (h : v.Inv s) (ha : s.requests[i]? = some a) {t : Instant}
    (hrefresh : a.phase.startedAt? = some t) (hkey : v.keyId a.token = some a.keyId) :
    v.Inv (failRefresh s i) := by
  have hanswered : (Phase.answered (.error .unavailable)).startedAt? = none := rfl
  have houtcome : Outcome.failed ≠ .running := nofun
  refine h.release ha hrefresh hanswered hkey houtcome nofun fun rest hcache => ?_
  rw [hcache]
  rfl

/-- The discovery document has come. -/
theorem Inv.locate (h : v.Inv s) (ha : s.requests[i]? = some a) {t : Instant}
    (hphase : a.phase = .metadata t) (hkey : v.keyId a.token = some a.keyId) {metadata : Fields}
    {uri : List Char} (huri : v.jwksUri metadata = some uri) :
    v.Inv { s with requests := s.moved i (.jwks t metadata uri) } := by
  have hstarted : a.phase.startedAt? = some t := by rw [hphase]; rfl
  obtain ⟨hlock, hrunning⟩ := (h.requests i a ha).refreshing t hstarted
  refine ⟨h.cache, h.past, h.spaced, h.fetched, h.idle, fun j hj => ?_, fun j b hb => ?_⟩
  · have hji : j = i := by
      dsimp only at hj
      rw [hlock, Option.some.injEq] at hj
      exact hj.symm
    rw [hji]
    exact ⟨_, t, getElem?_moved_self ha, rfl⟩
  · obtain ⟨c, hc, ⟨rfl, rfl⟩ | ⟨hne, rfl⟩⟩ := getElem?_moved hb
    · rw [ha, Option.some.injEq] at hc
      subst hc
      refine ⟨.inl hkey, fun t' ht => ?_, fun t' metadata' uri' hjwks => ?_⟩
      · cases ht
        exact ⟨hlock, hrunning⟩
      · cases hjwks
        exact huri
    · exact (h.requests j b hc).other (h.not_refreshing hlock hc hne)

theorem Inv.receive (h : v.Inv s) (ha : s.requests[i]? = some a) {document : Option Fields}
    {s' : State κ} (hs : v.receive s i a document = some s') : v.Inv s' := by
  have hkey {t : Instant} (ht : a.phase.startedAt? = some t) : v.keyId a.token = some a.keyId := by
    obtain hkey | hanswered := (h.requests i a ha).token
    · exact hkey
    · rw [hanswered] at ht
      cases ht
  unfold OidcJwtVerifier.receive at hs
  split at hs
  · next startedAt hphase =>
    have ht : a.phase.startedAt? = some startedAt := by rw [hphase]; rfl
    split at hs
    · cases hs
      exact h.failRefresh ha ht (hkey ht)
    · next metadata =>
      split at hs
      · cases hs
        exact h.failRefresh ha ht (hkey ht)
      · next uri huri =>
        cases hs
        exact h.locate ha hphase (hkey ht) huri
  · next startedAt metadata uri hphase =>
    have ht : a.phase.startedAt? = some startedAt := by rw [hphase]; rfl
    split at hs
    · cases hs
      exact h.failRefresh ha ht (hkey ht)
    · next document =>
      split at hs
      · cases hs
        exact h.failRefresh ha ht (hkey ht)
      · next keys hkeys =>
        cases hs
        have huri := (h.requests i a ha).located startedAt metadata uri hphase
        have houtcome : Outcome.fetched metadata uri document ≠ .running := nofun
        refine h.release ha ht (by rfl) (hkey ht) houtcome ?_ fun rest hcache => ?_
        · rintro metadata uri document ⟨rfl, rfl, rfl⟩
          exact ⟨huri, by rw [hkeys]; rfl⟩
        · rw [hcache, replay_fetched hkeys]
          rfl
  · cases hs

theorem Inv.cancel (h : v.Inv s) (ha : s.requests[i]? = some a) {s' : State κ}
    (hs : cancel s i a = some s') : v.Inv s' := by
  have hkey (hphase : ∀ result, a.phase ≠ .answered result) : v.keyId a.token = some a.keyId :=
    (h.requests i a ha).token.resolve_right (hphase _)
  have hcancelled : Phase.cancelled.startedAt? = none := rfl
  have houtcome : Outcome.abandoned ≠ .running := nofun
  unfold OidcJwtVerifier.cancel at hs
  split at hs
  · next hphase =>
    cases hs
    exact h.move ha (by rw [hphase]; rfl) hcancelled (hkey (by rw [hphase]; nofun))
  · next hphase =>
    cases hs
    refine h.release ha (by rw [hphase]; rfl) hcancelled (hkey (by rw [hphase]; nofun)) houtcome nofun
      fun rest hcache => ?_
    rw [hcache]
    rfl
  · next hphase =>
    cases hs
    refine h.release ha (by rw [hphase]; rfl) hcancelled (hkey (by rw [hphase]; nofun)) houtcome nofun
      fun rest hcache => ?_
    rw [hcache]
    rfl
  · cases hs

theorem Inv.step (h : v.Inv s) {e : Event} {s' : State κ} (hs : v.step s e = some s') : v.Inv s' := by
  cases e with
  | tick elapsed wall =>
    cases hs
    exact h.tick elapsed wall
  | authenticate token =>
    cases hs
    exact h.enter token
  | acquire i =>
    simp only [OidcJwtVerifier.step] at hs
    split at hs
    · next token keyId ha =>
      split at hs
      · next hlock =>
        cases hs
        exact h.acquire ha rfl hlock
      · cases hs
    · cases hs
  | answer i document =>
    obtain ⟨a, ha, hs⟩ := Option.bind_eq_some_iff.mp hs
    exact h.receive ha hs
  | cancel i =>
    obtain ⟨a, ha, hs⟩ := Option.bind_eq_some_iff.mp hs
    exact h.cancel ha hs

theorem reachable_inv (h : v.Reachable s) : v.Inv s := by
  induction h with
  | initial => exact inv_initial
  | step _ hstep ih => exact ih.step hstep

/-! ## Which tokens are accepted -/

variable (v)

/-- The refresh is the latest that brought keys, from where the issuer says, and this is one of
them. -/
def Current (refreshes : List Refresh) (keyId : List Char) (key : κ) (r : Refresh) : Prop :=
  ∃ newer older metadata uri document, refreshes = newer ++ r :: older ∧
    (∀ n ∈ newer, ¬ n.Fetched) ∧ r.outcome = .fetched metadata uri document ∧
    metadata.lookup "issuer".toList = some (.str v.issuer) ∧
    metadata.lookup "jwks_uri".toList = some (.str uri) ∧ v.originOf uri = v.originOf v.issuer ∧
    v.Publishes document keyId key

/-- The claims say who the principal is. -/
structure Names (claims : Fields) (principal : Principal) : Prop where
  subject : claims.lookup "sub".toList = some (.str principal.subject)
  organization : ∃ text, claims.lookup v.organizationClaim = some (.str text) ∧
    v.uuid text = some principal.organizationId
  role : claims.lookup v.roleClaim = some (.str principal.role.value)
  displayName : ∀ name, principal.displayName = some name ↔
    claims.lookup "name".toList = some (.str name)

/-- The key verifies the token, and its claims are the principal's. -/
def Verifies (key : κ) (a : Authentication) (wall : Instant) (principal : Principal) : Prop :=
  ∃ token claims, a.token = some token ∧ v.decode key token wall = some claims ∧
    v.Names claims principal

variable {v} {principal : Principal} {wall : Instant}

theorem authRole_eq_some {text : List Char} {role : AuthRole} (h : authRole text = some role) :
    role.value = text := by
  unfold authRole at h
  split_ifs at h <;> cases h <;> exact Eq.symm ‹_›

theorem displayName_eq_some {value : Option Value} {name : Option (List Char)}
    (h : displayName value = some name) (text : List Char) :
    name = some text ↔ value = some (.str text) := by
  unfold OidcJwtVerifier.displayName at h
  split at h
  · cases h
    exact ⟨nofun, nofun⟩
  · cases h
    exact ⟨nofun, nofun⟩
  · split at h
    · cases h
    · cases h
      rw [Option.some.injEq, Option.some.injEq, Value.str.injEq]
  · cases h

/-- **The principal is who the claims say.** -/
theorem principalFromClaims_names {claims : Fields}
    (h : v.principalFromClaims claims = some principal) : v.Names claims principal := by
  unfold principalFromClaims at h
  split at h
  · next subject organization role hsubject horganization hrole =>
    split at h
    · cases h
    · split at h
      · cases h
      · next name hname =>
        split at h
        · split at h
          · next organizationId authorized huuid hauthorized =>
            cases h
            exact ⟨hsubject, ⟨organization, horganization, huuid⟩,
              (authRole_eq_some hauthorized).symm ▸ hrole, displayName_eq_some hname⟩
          · cases h
        · cases h
  · cases h

theorem verifies (hkey : v.keyId a.token = some keyId)
    (h : v.verify key (a.token.getD "") wall = .ok principal) : v.Verifies key a wall principal := by
  cases htoken : a.token with
  | none =>
    rw [htoken] at hkey
    cases hkey
  | some token =>
    rw [htoken] at h
    unfold verify at h
    split at h
    · cases h
    · next claimed hclaimed =>
      cases h
      obtain ⟨claims, hclaims, hprincipal⟩ := Option.bind_eq_some_iff.mp hclaimed
      exact ⟨token, claims, htoken, hclaims, principalFromClaims_names hprincipal⟩

/-- A key from the cache. -/
theorem Inv.cached (h : v.Inv s) (hcached : v.cached s.cache s.now keyId = some key) :
    ∃ r, v.Current s.refreshes keyId key r ∧ s.now ≤ r.startedAt + seconds v.cacheSeconds := by
  unfold OidcJwtVerifier.cached at hcached
  split at hcached
  · next hfresh =>
    rw [isFresh, Option.any_eq_true] at hfresh
    obtain ⟨t, ht, hage⟩ := hfresh
    rw [decide_eq_true_eq] at hage
    rw [h.cache] at ht hcached
    obtain ⟨newer, r, older, metadata, uri, document, hlog, hnewer, houtcome, hstart, hkeys⟩ :=
      replay_latest ht
    have hr : r ∈ s.refreshes := by
      rw [hlog]
      exact List.mem_append_right _ List.mem_cons_self
    obtain ⟨huri, hsome⟩ := h.fetched r hr metadata uri document houtcome
    obtain ⟨keys, hdocument⟩ := Option.isSome_iff_exists.mp hsome
    rw [hkeys, hdocument, Option.getD_some] at hcached
    obtain ⟨hissuer, hplace, horigin⟩ := jwksUri_eq_some huri
    refine ⟨r, ⟨newer, older, metadata, uri, document, hlog, hnewer, houtcome, hissuer, hplace,
      horigin, jwksKeys_publishes hdocument hcached⟩, ?_⟩
    rw [hstart]
    exact Nat.sub_le_iff_le_add'.mp hage
  · cases hcached

/-- **Accepted tokens.** Whatever requests, answers, failures and cancellations come in whatever
order: the request that is answered with a principal has a token whose signature a key of the
latest fetched key set verifies, one published for signing in a set that is fresh or that this
request itself has fetched, from the issuer's origin, and the principal is what the token claims. -/
theorem token_accepted (h : v.Reachable s) {e : Event} {s' : State κ} (hs : v.step s e = some s')
    (hbefore : ∀ b, s.requests[i]? = some b → ∀ result, b.phase ≠ .answered result)
    (ha : s'.requests[i]? = some a) (hanswer : a.phase = .answered (.ok principal)) :
    v.keyId a.token = some a.keyId ∧ ∃ r key, v.Current s'.refreshes a.keyId key r ∧
      (s'.now ≤ r.startedAt + seconds v.cacheSeconds ∨ r.requestedBy = i) ∧
      v.Verifies key a s'.wall principal := by
  have hi := reachable_inv h
  -- What was there before and what has moved to another phase is not the answered request.
  have hold (hmem : s.requests[i]? = some a) : False := hbefore a hmem _ hanswer
  have hmoved {j : Nat} {phase : Phase} (hmem : (s.moved j phase)[i]? = some a) :
      j = i ∧ phase = .answered (.ok principal) ∧ ∃ b, s.requests[i]? = some b ∧
        a = { b with phase } := by
    obtain ⟨b, hb, ⟨rfl, rfl⟩ | ⟨-, rfl⟩⟩ := getElem?_moved hmem
    · exact ⟨rfl, hanswer, b, hb, rfl⟩
    · exact absurd hanswer (hbefore a hb _)
  have hfailed {j : Nat} {error : AuthError}
      (hmem : (s.moved j (.answered (.error error)))[i]? = some a) : False := by
    obtain ⟨-, hphase, -⟩ := hmoved hmem
    cases hphase
  cases e with
  | tick elapsed wall =>
    cases hs
    exact (hold ha).elim
  | authenticate token =>
    cases hs
    unfold enter at ha ⊢
    split at ha
    · obtain hmem | rfl := getElem?_concat ha
      · exact (hold hmem).elim
      · cases hanswer
    · next keyId hkey =>
      split at ha
      · next key hcached =>
        obtain hmem | rfl := getElem?_concat ha
        · exact (hold hmem).elim
        · rw [Phase.answered.injEq] at hanswer
          obtain ⟨r, hcurrent, hage⟩ := hi.cached hcached
          exact ⟨hkey, r, key, hcurrent, .inl hage, verifies hkey hanswer⟩
      · obtain hmem | rfl := getElem?_concat ha
        · exact (hold hmem).elim
        · cases hanswer
  | acquire j =>
    simp only [OidcJwtVerifier.step] at hs
    split at hs
    · next token keyId hj =>
      split at hs
      · cases hs
        have hkey := (hi.requests j _ hj).token.resolve_right nofun
        unfold acquire at ha ⊢
        split at ha
        · next key hcached =>
          obtain ⟨rfl, hphase, b, hb, rfl⟩ := hmoved ha
          rw [hj, Option.some.injEq] at hb
          subst hb
          rw [Phase.answered.injEq] at hphase
          obtain ⟨r, hcurrent, hage⟩ := hi.cached hcached
          exact ⟨hkey, r, key, hcurrent, .inl hage, verifies hkey hphase⟩
        · split at ha
          · exact (hfailed ha).elim
          · obtain ⟨-, hphase, -⟩ := hmoved ha
            cases hphase
      · cases hs
    · cases hs
  | answer j document =>
    obtain ⟨b, hb, hs⟩ := Option.bind_eq_some_iff.mp hs
    unfold receive at hs
    split at hs
    · split at hs
      · cases hs
        exact (hfailed ha).elim
      · split at hs
        · cases hs
          exact (hfailed ha).elim
        · cases hs
          obtain ⟨-, hphase, -⟩ := hmoved ha
          cases hphase
    · next startedAt metadata uri hphase =>
      cases document with
      | none =>
        cases hs
        exact (hfailed ha).elim
      | some document =>
        dsimp only at hs
        split at hs
        · cases hs
          exact (hfailed ha).elim
        · next keys hkeys =>
          cases hs
          obtain ⟨rfl, hresult, c, hc, rfl⟩ := hmoved ha
          rw [hb, Option.some.injEq] at hc
          subst hc
          have htracked := hi.requests j b hb
          have hkey : v.keyId b.token = some b.keyId :=
            htracked.token.resolve_right (by rw [hphase]; nofun)
          obtain ⟨-, rest, hrest, -⟩ := htracked.refreshing startedAt (by rw [hphase]; rfl)
          obtain ⟨hissuer, hplace, horigin⟩ := jwksUri_eq_some (htracked.located _ _ _ hphase)
          rw [Phase.answered.injEq] at hresult
          split at hresult
          · cases hresult
          · next key hlookup =>
            refine ⟨hkey, ⟨startedAt, j, .fetched metadata uri document⟩, key, ⟨[], rest, metadata, uri,
              document, ?_, nofun, rfl, hissuer, hplace, horigin, jwksKeys_publishes hkeys hlookup⟩,
              .inr rfl, verifies hkey hresult⟩
            show s.settled _ = _
            rw [State.settled, hrest]
            rfl
    · cases hs
  | cancel j =>
    obtain ⟨b, hb, hs⟩ := Option.bind_eq_some_iff.mp hs
    have hnever (hmem : (s.moved j .cancelled)[i]? = some a) : False := by
      obtain ⟨-, hphase, -⟩ := hmoved hmem
      cases hphase
    unfold cancel at hs
    split at hs
    · cases hs
      exact (hnever ha).elim
    · cases hs
      exact (hnever ha).elim
    · cases hs
      exact (hnever ha).elim
    · cases hs

theorem run_reachable {events : List Event} (h : v.run events = some s) : v.Reachable s := by
  suffices hfrom : ∀ s₀, v.Reachable s₀ → events.foldlM v.step s₀ = some s → v.Reachable s from
    hfrom _ .initial h
  clear h
  induction events with
  | nil =>
    rintro s₀ hs₀ ⟨⟩
    exact hs₀
  | cons e rest ih =>
    intro s₀ hs₀ hrun
    rw [List.foldlM_cons] at hrun
    obtain ⟨s₁, hstep, hrest⟩ := Option.bind_eq_some_iff.mp hrun
    exact ih s₁ (.step hs₀ hstep) hrest

theorem answer?_eq_some {phase : Phase} {result : Except AuthError Principal} :
    phase.answer? = some result ↔ phase = .answered result := by
  cases phase <;> simp [Phase.answer?]

/-! ## A provider -/

def sampleUrl (path : String) : List Char := ("https://id.example" ++ path).toList

def sampleParts : SplitUrl := ⟨"https".toList, some "id.example".toList, none, none, none, [], []⟩

/-- One token, signed by key 7 of the provider. -/
def sampleVerifier : OidcJwtVerifier Nat where
  issuer := sampleUrl ""
  algorithms := ["RS256".toList]
  organizationClaim := "org_id".toList
  roleClaim := "role".toList
  cacheSeconds := 300
  refreshCooldownSeconds := 10
  urlsplit url := if url = sampleUrl "" ∨ url = sampleUrl "/keys" then some sampleParts else none
  header token := if token = "token" then
    some [("alg".toList, .str "RS256".toList), ("kid".toList, .str "k7".toList)] else none
  fromDict entry := some ⟨entry.lookup "kty".toList, entry.lookup "use".toList,
    if isText "k7".toList (entry.lookup "kid".toList) then 7 else 8⟩
  decode key token _ := if key = 7 ∧ token = "token" then
    some [("iss".toList, .str (sampleUrl "")), ("aud".toList, .str "corpuskit".toList),
      ("exp".toList, .int 1000), ("sub".toList, .str "ada".toList), ("org_id".toList, .str "1".toList),
      ("role".toList, .str "editor".toList)] else none
  uuid text := if text = "1".toList then some 1 else none
  issuer_valid := by decide +kernel
  algorithms_rs256 := ⟨by decide, by decide⟩
  seconds_positive := ⟨by decide, by decide⟩

def sampleMetadata : Fields :=
  [("issuer".toList, .str (sampleUrl "")), ("jwks_uri".toList, .str (sampleUrl "/keys"))]

def sampleEntry (keyId use : String) : Value :=
  .obj [("kid".toList, .str keyId.toList), ("kty".toList, .str "RSA".toList),
    ("use".toList, .str use.toList), ("alg".toList, .str "RS256".toList),
    ("key_ops".toList, .arr [.str "verify".toList]), ("n".toList, .str "0vx7".toList),
    ("e".toList, .str "AQAB".toList)]

/-- A key for encryption, and the one for signing. -/
def sampleKeys : Fields :=
  [("keys".toList, .arr [sampleEntry "k8" "enc", sampleEntry "k7" "sig"])]

/-- Two requests come; the first fetches the keys. -/
def sampleFetch : List Event :=
  [.tick 5 0, .authenticate (some "token"), .authenticate (some "token"), .acquire 0,
    .answer 0 (some sampleMetadata)]

theorem token_accepted_fetched :
    ∃ s s' a, sampleVerifier.run sampleFetch = some s ∧
      sampleVerifier.step s (.answer 0 (some sampleKeys)) = some s' ∧ s'.requests[0]? = some a ∧
      a.phase = .answered (.ok ⟨"ada".toList, 1, .editor, none⟩) ∧
      ∃ r key, sampleVerifier.Current s'.refreshes a.keyId key r ∧
        sampleVerifier.Verifies key a s'.wall ⟨"ada".toList, 1, .editor, none⟩ := by
  have hrun : ((sampleVerifier.run sampleFetch).bind fun s =>
      (sampleVerifier.step s (.answer 0 (some sampleKeys))).bind fun s' =>
        s'.requests[0]?.map fun a => (s.requests.all fun b => b.phase.answer?.isNone, a.phase.answer?)) =
      some (true, some (.ok ⟨"ada".toList, 1, .editor, none⟩)) := by
    decide +kernel
  obtain ⟨s, hs, hrun⟩ := Option.bind_eq_some_iff.mp hrun
  obtain ⟨s', hstep, hrun⟩ := Option.bind_eq_some_iff.mp hrun
  obtain ⟨a, ha, hrun⟩ := Option.map_eq_some_iff.mp hrun
  simp only [Prod.mk.injEq] at hrun
  obtain ⟨hbefore, hanswer⟩ := hrun
  have hopen (b : Authentication) (hb : s.requests[0]? = some b) (result : Except AuthError Principal) :
      b.phase ≠ .answered result := by
    intro hphase
    have hnone := List.all_eq_true.mp hbefore b (List.mem_of_getElem? hb)
    rw [hphase] at hnone
    cases hnone
  have hphase := answer?_eq_some.mp hanswer
  obtain ⟨-, r, key, hcurrent, -, hverifies⟩ :=
    token_accepted (run_reachable hs) hstep hopen ha hphase
  exact ⟨s, s', a, hs, hstep, ha, hphase, r, key, hcurrent, hverifies⟩

/-! ## How often the provider is asked -/

/-- **Paced refreshes.** However many tokens come with whatever key identifiers: one refresh runs
at a time, for an unfinished request that holds the lock, a lock that is held is held by such a
request, and in a span of time no more refreshes start than there are gaps in it, but for the
abandoned ones and one more. -/
theorem refreshes_paced (h : v.Reachable s) (a b : Instant) :
    let started := s.refreshes.filter fun r => decide (a ≤ r.startedAt ∧ r.startedAt ≤ b)
    started.length * v.gap ≤ (b - a) + (1 + started.countP Refresh.isAbandoned) * v.gap ∧
      (∀ r ∈ s.refreshes, r.outcome = .running → s.refreshes.head? = some r ∧
        s.lock = some r.requestedBy ∧ ∃ request, s.requests[r.requestedBy]? = some request ∧
          request.phase.startedAt? = some r.startedAt) ∧
      ∀ i, s.lock = some i → ∃ request startedAt, s.requests[i]? = some request ∧
        request.phase.startedAt? = some startedAt ∧
        s.refreshes.head? = some ⟨startedAt, i, .running⟩ := by
  have hi := reachable_inv h
  refine ⟨(hi.spaced.filter _).length_le fun r hr => ?_, fun r hr hrunning => ?_, fun i hlock => ?_⟩
  · obtain ⟨-, hwithin⟩ := List.mem_filter.mp hr
    rwa [decide_eq_true_eq] at hwithin
  · cases hlock : s.lock with
    | none => exact absurd hrunning (hi.idle hlock r hr)
    | some j =>
      obtain ⟨request, t, hrequest, ht⟩ := hi.held j hlock
      obtain ⟨-, rest, hrest, hsettled⟩ := (hi.requests j request hrequest).refreshing t ht
      rw [hrest] at hr ⊢
      obtain rfl | hr := List.mem_cons.mp hr
      · exact ⟨rfl, rfl, request, hrequest, ht⟩
      · exact absurd hrunning (hsettled r hr)
  · obtain ⟨request, t, hrequest, ht⟩ := hi.held i hlock
    obtain ⟨-, rest, hrest, -⟩ := (hi.requests i request hrequest).refreshing t ht
    exact ⟨request, t, hrequest, ht, by rw [hrest]; rfl⟩

/-- The first request is cancelled while it fetches the keys, and the second one fetches them. -/
def sampleAbandoned : List Event := sampleFetch ++ [.cancel 0, .tick 3 0, .acquire 1]

theorem refreshes_paced_fetched :
    ∃ s, sampleVerifier.run sampleAbandoned = some s ∧ s.refreshes.length = 2 ∧ s.lock = some 1 ∧
      (s.refreshes.filter fun r => decide (5 ≤ r.startedAt ∧ r.startedAt ≤ 8)).length *
          sampleVerifier.gap ≤ (8 - 5) + (1 + (s.refreshes.filter fun r =>
            decide (5 ≤ r.startedAt ∧ r.startedAt ≤ 8)).countP Refresh.isAbandoned) *
              sampleVerifier.gap ∧
      ∃ request startedAt, s.requests[1]? = some request ∧
        request.phase.startedAt? = some startedAt ∧
        s.refreshes.head? = some ⟨startedAt, 1, .running⟩ := by
  have hrun : ((sampleVerifier.run sampleAbandoned).map fun s => (s.refreshes.length, s.lock)) =
      some (2, some 1) := by
    decide +kernel
  obtain ⟨s, hs, hrun⟩ := Option.map_eq_some_iff.mp hrun
  rw [Prod.mk.injEq] at hrun
  obtain ⟨hlength, hlock⟩ := hrun
  obtain ⟨hroom, -, hheld⟩ := refreshes_paced (run_reachable hs) 5 8
  exact ⟨s, hs, hlength, hlock, hroom, hheld 1 hlock⟩

end OidcJwtVerifier

end CorpusKit.Auth
