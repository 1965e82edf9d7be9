import CorpusKit.Web.Sessions

/-! # Session records round-trip

What the adapter accepts is accepted again by the decoder, and the envelope of a
record that fits is opened to its text. The size of the record, the order of its
two expiries and the time to live decide. -/

namespace CorpusKit.Web

open Script

/-! ## Sessions built from accepted tokens -/

theorem codePoints_le (s : Text) : codePoints s ≤ s.length := by
  induction s using codePoints.induct with
  | case1 => exact le_refl _
  | case2 u => exact le_refl _
  | case3 u v rest h ih =>
    rw [codePoints, if_pos h]
    simp only [List.length_cons]
    omega
  | case4 u v rest h ih =>
    rw [codePoints, if_neg h]
    simp only [List.length_cons] at ih ⊢
    omega

theorem codePoints_pos {s : Text} (h : s ≠ []) : 1 ≤ codePoints s := by
  match s, h with
  | [u], _ => exact le_refl _
  | u :: v :: rest, _ =>
    rw [codePoints]
    split <;> omega

/-- Up to 255 code units without control characters match the text pattern. -/
theorem matchesText_of {s : Text} (hne : s.isEmpty = false) (hlength : s.length ≤ 255)
    (hcontrol : s.any isControl = false) : matchesText s = true := by
  have hpos := codePoints_pos (s := s) (by simpa using hne)
  have hle := codePoints_le s
  simp only [matchesText, hcontrol, Bool.not_false, Bool.and_true, Bool.and_eq_true,
    decide_eq_true_eq]
  omega

theorem isOpaque_text (o : Opaque) : isOpaque o.text = true := by
  have hunits (c : Char) (hc : Base64.isDigit c = true) :
      ∃ u : CodeUnit, units c = [u] ∧ (u.val < 128 && Base64.isDigit (Char.ofNat u.val)) = true := by
    have hsmall : c.toNat < 128 := Base64.toNat_lt_of_isDigit hc
    have hval : (Fin.ofNat 65536 c.toNat).val = c.toNat := Nat.mod_eq_of_lt (by omega)
    refine ⟨Fin.ofNat 65536 c.toNat, by rw [units, if_pos (by omega)], ?_⟩
    rw [hval, Char.ofNat_toNat, hc, Bool.and_true, decide_eq_true_eq]
    exact hsmall
  have hall : ∀ (cs : List Char), (∀ c ∈ cs, Base64.isDigit c = true) →
      (ofChars cs).length = cs.length ∧
        ((ofChars cs).all fun u => u.val < 128 && Base64.isDigit (Char.ofNat u.val)) = true := by
    intro cs hcs
    induction cs with
    | nil => exact ⟨rfl, rfl⟩
    | cons c cs ih =>
      obtain ⟨u, hu, hvalid⟩ := hunits c (hcs c List.mem_cons_self)
      obtain ⟨hlength, hrest⟩ := ih fun d hd => hcs d (List.mem_cons_of_mem _ hd)
      have hcons : ofChars (c :: cs) = u :: ofChars cs := by
        rw [ofChars, List.flatMap_cons, hu]
        rfl
      rw [hcons, List.length_cons, List.length_cons, hlength, List.all_cons, hvalid, hrest]
      exact ⟨rfl, rfl⟩
  obtain ⟨hlength, hchars⟩ := hall (Base64.encode o.bytes) (Base64.isDigit_encode o.bytes)
  rw [Base64.length_encode, o.length] at hlength
  rw [isOpaque, Opaque.text, hlength, hchars]
  rfl

/-- What the checks of the adapter leave of a session. -/
structure Sound (config : WebAuthConfig) (s : BrowserSession) : Prop where
  mode : s.mode = .oidc
  subject : validSubject s.subject = true
  displayName : ∀ name ∈ s.displayName,
    (name.length ≤ 160 && isTrimmed name && matchesText name) = true
  accessToken : ∃ token, s.accessToken = some token ∧ validToken token = true
  refreshToken : ∀ token ∈ s.refreshToken, validToken token = true
  idToken : ∀ token ∈ s.idToken, validToken token = true
  accessExpiresAt : ∃ time, s.accessExpiresAt = some time ∧ time < 2 ^ 53
  csrfToken : isOpaque s.csrfToken = true
  createdAt : s.createdAt ≤ 8640000000000000
  absolute : s.absoluteExpiresAt = s.createdAt + config.sessionAbsoluteSeconds * 1000
  idle : s.idleExpiresAt ≤ s.absoluteExpiresAt

theorem expiration_some {expiresIn : Option Int} {now time : Nat}
    (h : expiration expiresIn now = some time) : time ≤ now + 86400000 := by
  cases expiresIn with
  | none => cases h
  | some seconds =>
    simp only [expiration] at h
    split at h
    · next hbound =>
      obtain rfl := Option.some.inj h
      omega
    · cases h

theorem validateClaims_some {config : WebAuthConfig} {claims : IdTokenClaims} {subject : Text}
    (h : validateClaims config claims = some subject) : validSubject subject = true := by
  unfold validateClaims at h
  split at h
  · split at h
    · next hvalid =>
      obtain rfl := Option.some.inj h
      exact hvalid.2.2
    · cases h
  · cases h

theorem displayName_valid {claims : IdTokenClaims} {name : Text} (h : displayName claims = some name) :
    (name.length ≤ 160 && isTrimmed name && matchesText name) = true := by
  obtain ⟨-, hname⟩ := Option.filter_eq_some_iff.mp h
  simp only [Bool.and_eq_true, Bool.not_eq_true', decide_eq_true_eq] at hname
  obtain ⟨⟨⟨hne, hlength⟩, htrim⟩, hcontrol⟩ := hname
  have hmatch := matchesText_of hne (by omega) hcontrol
  simp [hlength, htrim, hmatch]

theorem valid_orElse {a b : Option Text} (ha : a.all validToken = true)
    (hb : ∀ token ∈ b, validToken token = true) : ∀ token ∈ a <|> b, validToken token = true := by
  intro token htoken
  cases a with
  | none => exact hb token htoken
  | some t =>
    obtain rfl := Option.some.inj htoken
    exact ha

theorem Built.sound {config : WebAuthConfig} {s : BrowserSession} (h : Built config s) :
    Sound config s := by
  induction h with
  | @login response tokens received currentTime csrfToken h =>
    unfold exchange at h
    obtain ⟨claims, hclaims, h⟩ := Option.bind_eq_some_iff.mp h
    obtain ⟨subject, hsubject, h⟩ := Option.bind_eq_some_iff.mp h
    obtain ⟨access, haccess, h⟩ := Option.bind_eq_some_iff.mp h
    obtain ⟨refresh, hrefresh, h⟩ := Option.bind_eq_some_iff.mp h
    obtain ⟨id, hid, h⟩ := Option.bind_eq_some_iff.mp h
    obtain ⟨-, -, h⟩ := Option.bind_eq_some_iff.mp h
    obtain ⟨time, htime, h⟩ := Option.bind_eq_some_iff.mp h
    obtain rfl := Option.some.inj h
    have hbound := expiration_some htime
    have hreceived := received.2
    refine ⟨rfl, validateClaims_some hsubject, ?_, ⟨access, rfl, ?_⟩, ?_, ?_, ⟨time, rfl, ?_⟩,
      isOpaque_text csrfToken, currentTime.2, rfl, min_le_left _ _⟩
    · intro name hname
      exact displayName_valid (Option.filter_eq_some_iff.mp hname).1
    · exact (Option.filter_eq_some_iff.mp haccess).2
    · rintro token ⟨⟩
      exact (Option.filter_eq_some_iff.mp hrefresh).2
    · rintro token ⟨⟩
      exact (Option.filter_eq_some_iff.mp hid).2
    · omega
  | @refresh session response refreshed received hs h hsubject ih =>
    obtain ⟨access, haccess, h⟩ := Option.bind_eq_some_iff.mp h
    obtain ⟨⟨⟩, hguard, h⟩ := Option.bind_eq_some_iff.mp h
    obtain ⟨subject, -, h⟩ := Option.bind_eq_some_iff.mp h
    obtain ⟨time, htime, h⟩ := Option.bind_eq_some_iff.mp h
    obtain rfl := Option.some.inj h
    have hbound := expiration_some htime
    have hreceived := received.2
    simp only [Option.guard_eq_some', Bool.and_eq_true] at hguard
    obtain ⟨⟨hrefresh, hid⟩, -⟩ := hguard
    refine ⟨ih.mode, ih.subject, ih.displayName, ⟨access, rfl, ?_⟩,
      valid_orElse hrefresh ih.refreshToken, valid_orElse hid ih.idToken, ⟨time, rfl, ?_⟩,
      ih.csrfToken, ih.createdAt, ih.absolute, ih.idle⟩
    · exact (Option.filter_eq_some_iff.mp haccess).2
    · omega
  | use currentTime hs hlive ih =>
    exact ⟨ih.mode, ih.subject, ih.displayName, ih.accessToken, ih.refreshToken, ih.idToken,
      ih.accessExpiresAt, ih.csrfToken, ih.createdAt, ih.absolute, min_le_left _ _⟩

/-! ## The text of a record -/

def BrowserSession.record (s : BrowserSession) : Record :=
  s.fields.map fun field => (field.1, field.2.scalar)

theorem SessionKey.names_nodup : (SessionKey.all.map SessionKey.name).Nodup := by decide +kernel

theorem SessionKey.mem_all (key : SessionKey) : key ∈ SessionKey.all := by cases key <;> decide

theorem SessionKey.name_injective {a b : SessionKey} (h : a.name = b.name) : a = b :=
  List.inj_on_of_nodup_map names_nodup (mem_all a) (mem_all b) h

theorem mem_fields {s : BrowserSession} {name : Text} {cell : Cell} :
    (name, cell) ∈ s.fields ↔ ∃ key : SessionKey, key.name = name ∧ s.cell key = some cell := by
  simp only [BrowserSession.fields, List.mem_filterMap, Option.map_eq_some_iff, Prod.mk.injEq]
  constructor
  · rintro ⟨key, -, c, hcell, rfl, rfl⟩
    exact ⟨key, rfl, hcell⟩
  · rintro ⟨key, rfl, hcell⟩
    exact ⟨key, SessionKey.mem_all key, cell, hcell, rfl, rfl⟩

theorem fields_nodup (s : BrowserSession) : (s.fields.map Prod.fst).Nodup := by
  have hsub : (s.fields.map Prod.fst).Sublist (SessionKey.all.map SessionKey.name) := by
    rw [BrowserSession.fields]
    induction SessionKey.all with
    | nil => exact List.Sublist.slnil
    | cons key keys ih =>
      rw [List.filterMap_cons]
      cases s.cell key with
      | none => exact ih.cons _
      | some cell => exact ih.cons_cons _
  exact SessionKey.names_nodup.sublist hsub

/-- A property of the record is the value that was written for it. -/
theorem get_record (s : BrowserSession) (key : SessionKey) :
    Record.get s.record key.name = (s.cell key).map Cell.scalar := by
  cases hcell : s.cell key with
  | some cell => exact Record.get_written (fields_nodup s) (mem_fields.mpr ⟨key, rfl, hcell⟩)
  | none =>
    refine Record.get_unwritten fun hmem => ?_
    obtain ⟨⟨name, cell⟩, hfield, hname⟩ := List.mem_map.mp hmem
    obtain ⟨other, hother, hcell'⟩ := mem_fields.mp hfield
    obtain rfl : other = key := SessionKey.name_injective (hother.trans hname)
    rw [hcell] at hcell'
    cases hcell'

theorem fields_safe {config : WebAuthConfig} {s : BrowserSession} (hs : Sound config s) :
    ∀ field ∈ s.fields, field.2.Safe := by
  rintro ⟨name, cell⟩ hfield
  obtain ⟨key, -, hcell⟩ := mem_fields.mp hfield
  obtain ⟨time, htime, hbound⟩ := hs.accessExpiresAt
  have hcreated := hs.createdAt
  have habsolute := hs.absolute
  have hidle := hs.idle
  have hseconds := config.absolute
  cases key <;> simp only [BrowserSession.cell, htime, Option.map_eq_some_iff, Option.map_some,
    Option.some.injEq] at hcell
  case version => subst hcell; show 1 < 2 ^ 53; omega
  case accessExpiresAt => subst hcell; exact hbound
  case createdAt => subst hcell; show s.createdAt < 2 ^ 53; omega
  case absoluteExpiresAt => subst hcell; show s.absoluteExpiresAt < 2 ^ 53; omega
  case idleExpiresAt => subst hcell; show s.idleExpiresAt < 2 ^ 53; omega
  case mode => subst hcell; trivial
  case subject => subst hcell; trivial
  case csrfToken => subst hcell; trivial
  all_goals
    obtain ⟨s, -, rfl⟩ := hcell
    trivial

theorem parse_json {config : WebAuthConfig} {s : BrowserSession} (hs : Sound config s) :
    parse s.json = some s.record := by
  refine parse_stringify ?_ (fields_safe hs)
  have hmode : (SessionKey.mode.name, Cell.text s.mode.value) ∈ s.fields :=
    mem_fields.mpr ⟨.mode, rfl, rfl⟩
  exact List.ne_nil_of_mem hmode

/-! ## Decoding -/

theorem required_present (s : BrowserSession) :
    (SessionKey.required.all fun key => (s.record.map Prod.fst).contains key.name) = true := by
  rw [List.all_eq_true]
  intro key hkey
  have hcell : ∃ cell, s.cell key = some cell := by
    cases key <;> first | exact ⟨_, rfl⟩ | exact absurd hkey (by decide)
  obtain ⟨cell, hcell⟩ := hcell
  rw [List.contains_iff_mem]
  have hmem : (key.name, cell) ∈ s.fields := mem_fields.mpr ⟨key, rfl, hcell⟩
  exact List.mem_map.mpr ⟨(key.name, cell.scalar), List.mem_map.mpr ⟨_, hmem, rfl⟩, rfl⟩

theorem names_known (s : BrowserSession) :
    ((s.record.map Prod.fst).all fun name => SessionKey.all.any fun key => key.name == name) =
      true := by
  rw [List.all_eq_true]
  intro name hname
  obtain ⟨field, hfield, rfl⟩ := List.mem_map.mp hname
  obtain ⟨⟨name, cell⟩, hmem, rfl⟩ := List.mem_map.mp hfield
  obtain ⟨key, rfl, -⟩ := mem_fields.mp hmem
  rw [List.any_eq_true]
  exact ⟨key, SessionKey.mem_all key, beq_self_eq_true _⟩

theorem safeTime_natCast {n : Nat} (h : n < 2 ^ 53) : safeTime (some (.number n)) = some n := by
  have hn : (n : Int) < 2 ^ 53 := by exact_mod_cast h
  rw [safeTime, if_pos]
  · simp
  · exact ⟨Rat.den_natCast n, by simp, by simpa using hn⟩

/-- A cell that is undefined or passes is read back. -/
theorem optionally_map {check : Text → Bool} {o : Option Text} (h : ∀ s ∈ o, check s = true) :
    optionally (string check) ((o.map Cell.text).map Cell.scalar) = some o := by
  cases o with
  | none => rfl
  | some s =>
    show (string check (.str s)).map some = _
    rw [string, if_pos (h s rfl)]
    rfl

theorem string_some (check : Text → Bool) {s : Text} (h : check s = true) :
    string check (.str s) = some s := by rw [string, if_pos h]

theorem validSubject_text {sub : Text} (h : validSubject sub = true) :
    (isTrimmed sub && matchesText sub) = true := by
  simp only [validSubject, Bool.and_eq_true, Bool.not_eq_true', decide_eq_true_eq] at h
  obtain ⟨⟨⟨hne, hlength⟩, htrim⟩, hcontrol⟩ := h
  rw [htrim, matchesText_of hne hlength hcontrol]
  rfl

theorem bind_of_some {α β : Type} {o : Option α} {a : α} (h : o = some a) (f : α → Option β) :
    (o >>= f) = f a := by
  rw [h]
  rfl

/-- **The decoder's verdict.** A record built from accepted tokens decodes to itself, unless
its times are out of order. -/
theorem decodeSession_json {config : WebAuthConfig} {s : BrowserSession} (hs : Sound config s) :
    decodeSession s.json = if consistent s then some s else none := by
  obtain ⟨time, htime, hbound⟩ := hs.accessExpiresAt
  have hcreated : s.createdAt < 2 ^ 53 := lt_of_le_of_lt hs.createdAt (by decide)
  have habsolute : s.absoluteExpiresAt < 2 ^ 53 := by
    have hseconds := config.absolute
    have := hs.createdAt
    rw [hs.absolute]
    omega
  have hidle : s.idleExpiresAt < 2 ^ 53 := lt_of_le_of_lt hs.idle habsolute
  have hversion : (Record.get s.record SessionKey.version.name == some (.number 1)) = true := by
    rw [get_record, beq_iff_eq]
    show some (Scalar.number ((1 : Nat) : ℚ)) = _
    rw [Nat.cast_one]
  have hguard : guard (((SessionKey.required.all fun key =>
        (s.record.map Prod.fst).contains key.name) &&
      ((s.record.map Prod.fst).all fun name => SessionKey.all.any fun key => key.name == name) &&
      Record.get s.record SessionKey.version.name == some (.number 1)) = true) = some () := by
    rw [required_present, names_known, hversion]
    rfl
  have hmode : decodeMode (Record.get s.record SessionKey.mode.name) = some s.mode := by
    rw [get_record, BrowserSession.cell, hs.mode]
    decide +kernel
  have hsubject : (Record.get s.record SessionKey.subject.name).bind
      (string fun s => isTrimmed s && matchesText s) = some s.subject := by
    rw [get_record]
    exact string_some (fun s => isTrimmed s && matchesText s) (validSubject_text hs.subject)
  have hname : optionalText 160 (Record.get s.record SessionKey.displayName.name) =
      some s.displayName := by
    rw [get_record]
    exact optionally_map hs.displayName
  have haccess : optionalToken (Record.get s.record SessionKey.accessToken.name) =
      some s.accessToken := by
    obtain ⟨token, htoken, hvalid⟩ := hs.accessToken
    rw [get_record]
    refine optionally_map fun t ht => ?_
    rw [htoken] at ht
    obtain rfl := Option.some.inj ht
    exact hvalid
  have hrefresh : optionalToken (Record.get s.record SessionKey.refreshToken.name) =
      some s.refreshToken := by
    rw [get_record]
    exact optionally_map hs.refreshToken
  have hid : optionalToken (Record.get s.record SessionKey.idToken.name) = some s.idToken := by
    rw [get_record]
    exact optionally_map hs.idToken
  have hexpires : optionally (fun value => safeTime (some value))
      (Record.get s.record SessionKey.accessExpiresAt.name) = some s.accessExpiresAt := by
    rw [get_record, BrowserSession.cell, htime]
    show (safeTime (some (.number time))).map some = _
    rw [safeTime_natCast hbound]
    rfl
  have hcsrf : (Record.get s.record SessionKey.csrfToken.name).bind (string isOpaque) =
      some s.csrfToken := by
    rw [get_record]
    exact string_some isOpaque hs.csrfToken
  have hcreatedAt : safeTime (Record.get s.record SessionKey.createdAt.name) =
      some s.createdAt := by
    rw [get_record]
    exact safeTime_natCast hcreated
  have habsoluteAt : safeTime (Record.get s.record SessionKey.absoluteExpiresAt.name) =
      some s.absoluteExpiresAt := by
    rw [get_record]
    exact safeTime_natCast habsolute
  have hidleAt : safeTime (Record.get s.record SessionKey.idleExpiresAt.name) =
      some s.idleExpiresAt := by
    rw [get_record]
    exact safeTime_natCast hidle
  unfold decodeSession
  rw [bind_of_some (parse_json hs), bind_of_some hguard, bind_of_some hmode, bind_of_some hsubject,
    bind_of_some hname, bind_of_some haccess, bind_of_some hrefresh, bind_of_some hid,
    bind_of_some hexpires, bind_of_some hcsrf, bind_of_some hcreatedAt, bind_of_some habsoluteAt,
    bind_of_some hidleAt]
  by_cases hconsistent : consistent s
  · rw [if_pos hconsistent, bind_of_some (by rw [hconsistent]; rfl)]
    rfl
  · rw [if_neg hconsistent]
    simp [hconsistent]

/-- The decoder takes the record back exactly where it was live when it was made. -/
theorem consistent_iff {config : WebAuthConfig} {s : BrowserSession} (hs : Sound config s) :
    consistent s = true ↔ s.createdAt < s.idleExpiresAt := by
  obtain ⟨time, htime, -⟩ := hs.accessExpiresAt
  obtain ⟨token, htoken, -⟩ := hs.accessToken
  have hseconds := config.absolute
  have habsolute : s.createdAt < s.absoluteExpiresAt := by
    rw [hs.absolute]
    omega
  simp [consistent, hs.mode, htime, htoken, habsolute, hs.idle]

/-! ## Envelopes -/

/-- What the store relies on of AES-256-GCM. -/
structure AesGcm.Correct (gcm : AesGcm) : Prop where
  opens : ∀ key iv associated source, key.length = 32 → iv.length = 12 →
    gcm.decipher key iv associated (gcm.encipher key iv associated source).1
      (gcm.encipher key iv associated source).2 = some source
  size : ∀ key iv associated source, (gcm.encipher key iv associated source).1.length = source.length
  tag : ∀ key iv associated source, (gcm.encipher key iv associated source).2.length = 16

theorem fromUtf8_utf8 (text : List Char) : fromUtf8 (utf8 text) = some text := by
  show (text.utf8Encode.utf8Decode?).map Array.toList = some text
  rw [List.utf8Decode?_utf8Encode]
  rfl

theorem keyId_digits {sha256 : List UInt8 → List UInt8} (key : List UInt8) :
    ∀ c ∈ keyId sha256 key, Base64.isDigit c = true :=
  fun c hc => Base64.isDigit_encode _ c (List.mem_of_mem_take hc)

theorem keyId_length {sha256 : List UInt8 → List UInt8} (hsha : ∀ bytes, (sha256 bytes).length = 32)
    (key : List UInt8) : (keyId sha256 key).length = 16 := by
  rw [keyId, List.length_take, Base64.length_encode, hsha]
  rfl

theorem isEnvelopePart_of {part : List Char} (hlength : 0 < part.length)
    (hdigits : ∀ c ∈ part, Base64.isDigit c = true) : isEnvelopePart part = true := by
  have hne : part.isEmpty = false := by
    rw [List.isEmpty_eq_false_iff]
    exact List.ne_nil_of_length_pos hlength
  rw [isEnvelopePart, hne, List.all_eq_true.mpr hdigits]
  rfl

theorem encode_part {bytes : List UInt8} (h : 0 < bytes.length) :
    isEnvelopePart (Base64.encode bytes) = true := by
  refine isEnvelopePart_of ?_ (Base64.isDigit_encode bytes)
  rw [Base64.length_encode]
  omega

theorem dot_not_digit {part : List Char} (h : ∀ c ∈ part, Base64.isDigit c = true) : '.' ∉ part := by
  intro hdot
  exact absurd (h '.' hdot) (by decide)

section

variable {sha256 : List UInt8 → List UInt8} {gcm : AesGcm} {ring : KeyRing sha256}
  {iv : List UInt8} {plaintext associatedData envelope : List Char}

theorem encrypt_ok : encrypt gcm ring iv plaintext associatedData = .ok envelope ↔
    (utf8 plaintext).length ≤ maximumPlaintextBytes ∧ iv.length = 12 ∧
      envelope = ['.'].intercalate ["v1".toList, keyId sha256 ring.active, Base64.encode iv,
        Base64.encode (gcm.encipher ring.active iv (utf8 associatedData) (utf8 plaintext)).1,
        Base64.encode (gcm.encipher ring.active iv (utf8 associatedData) (utf8 plaintext)).2] := by
  unfold encrypt
  dsimp only
  split
  · next hlarge =>
    constructor
    · intro h
      cases h
    · rintro ⟨hsize, -⟩
      exact absurd hsize (Nat.not_le.mpr hlarge)
  · next h =>
    split
    · next hiv =>
      constructor
      · intro h
        cases h
      · rintro ⟨-, hok, -⟩
        exact absurd hok hiv
    · next hiv =>
      refine ⟨fun heq => ⟨Nat.not_lt.mp h, not_not.mp hiv, (Except.ok.inj heq).symm⟩, ?_⟩
      rintro ⟨-, -, rfl⟩
      rfl

/-- **Envelopes are opened.** The same key ring reads back what it enciphered. -/
theorem decrypt_encrypt (hgcm : gcm.Correct) (hsha : ∀ bytes, (sha256 bytes).length = 32)
    (hne : plaintext ≠ [])
    (h : encrypt gcm ring iv plaintext associatedData = .ok envelope) :
    decrypt gcm ring envelope associatedData = some plaintext := by
  obtain ⟨hsize, hiv, henvelope⟩ := encrypt_ok.mp h
  have hkey : ring.active.length = 32 := ring.length _ List.mem_cons_self
  have hopens := hgcm.opens ring.active iv (utf8 associatedData) (utf8 plaintext) hkey hiv
  have hcipher := hgcm.size ring.active iv (utf8 associatedData) (utf8 plaintext)
  have htag := hgcm.tag ring.active iv (utf8 associatedData) (utf8 plaintext)
  generalize gcm.encipher ring.active iv (utf8 associatedData) (utf8 plaintext) = sealed at *
  have hpos : 0 < (utf8 plaintext).length := by
    obtain ⟨c, rest, rfl⟩ := List.exists_cons_of_ne_nil hne
    have hc : 0 < (String.utf8EncodeChar c).length := by
      rw [String.length_utf8EncodeChar]
      exact c.utf8Size_pos
    rw [utf8, List.flatMap_cons, List.length_append]
    omega
  have hlength : envelope.length ≤ maximumEnvelopeCharacters := by
    have hversion : "v1".toList.length = 2 := rfl
    have hparts : envelope.length = 2 + 1 + 16 + 1 + 16 + 1 + (Base64.encode sealed.1).length + 1 + 22 := by
      rw [henvelope]
      simp [List.intercalate, List.intersperse, keyId_length hsha, Base64.length_encode, hiv, htag]
      omega
    rw [hparts, Base64.length_encode, hcipher]
    have := hsize
    unfold maximumPlaintextBytes at this
    unfold maximumEnvelopeCharacters
    omega
  have hsplit : envelope.splitOn '.' = ["v1".toList, keyId sha256 ring.active, Base64.encode iv,
      Base64.encode sealed.1, Base64.encode sealed.2] := by
    rw [henvelope, List.splitOn_intercalate '.' _ (by simp)]
    have hdot (bytes : List UInt8) : '.' ∉ Base64.encode bytes := dot_not_digit (Base64.isDigit_encode bytes)
    have hv1 : '.' ∉ "v1".toList := by decide
    intro part hpart
    simp only [List.mem_cons, List.not_mem_nil, or_false] at hpart
    rcases hpart with rfl | rfl | rfl | rfl | rfl
    · exact hv1
    · exact dot_not_digit (keyId_digits _)
    · exact hdot _
    · exact hdot _
    · exact hdot _
  have hparts : ([keyId sha256 ring.active, Base64.encode iv, Base64.encode sealed.1,
      Base64.encode sealed.2].all isEnvelopePart) = true := by
    have hid : isEnvelopePart (keyId sha256 ring.active) = true :=
      isEnvelopePart_of (by rw [keyId_length hsha]; decide) (keyId_digits _)
    rw [List.all_cons, List.all_cons, List.all_cons, List.all_cons, hid,
      encode_part (by omega), encode_part (by omega), encode_part (by omega)]
    rfl
  have hfound : (ring.keys.find? fun key => keyId sha256 key == keyId sha256 ring.active) =
      some ring.active := by
    rw [KeyRing.keys, List.find?_cons, beq_self_eq_true]
  rw [decrypt, if_neg (Nat.not_lt.mpr hlength), hsplit]
  dsimp only
  rw [if_pos ⟨rfl, hparts⟩, hfound]
  dsimp only
  rw [Base64.decode_encode, Base64.decode_encode, Base64.decode_encode, if_neg, hopens,
    Option.bind_some, fromUtf8_utf8]
  rw [hcipher]
  omega

end

/-! ## The store -/

theorem storeKey_of_random (namePrefix : List Char) (kind : Kind) (id : Opaque) :
    storeKey namePrefix kind id.text = .ok (namePrefix ++ kind.segment ++ asciiChars id.text) := by
  rw [storeKey, if_pos (isOpaque_text id)]

theorem json_ne_nil (s : BrowserSession) : s.json ≠ [] := List.cons_ne_nil _ _

section

variable {sha256 : List UInt8 → List UInt8} {gcm : AesGcm} {ring : KeyRing sha256}
  {namePrefix : List Char} {redis : Redis}

theorem putCommand_ok {key json : List Char} {iv : List UInt8} {ttlMs : Nat} {nx : Bool}
    {command : Command} : putCommand gcm ring key iv json ttlMs nx = .ok command ↔
      ∃ envelope, encrypt gcm ring iv json key = .ok envelope ∧ 0 < ttlMs ∧ ttlMs ≤ 86400000 ∧
        command = .set key envelope ttlMs nx := by
  unfold putCommand
  cases hencrypt : encrypt gcm ring iv json key with
  | error e => simp [bind, Except.bind]
  | ok envelope =>
    by_cases httl : ttlMs = 0 ∨ 86400000 < ttlMs
    · have hcheck : checkTtl ttlMs = .error .invalidTtl := if_pos httl
      simp only [bind, Except.bind, hcheck, reduceCtorEq, Except.ok.injEq, exists_eq_left', false_iff]
      omega
    · have hcheck : checkTtl ttlMs = .ok ttlMs := if_neg httl
      simp only [bind, Except.bind, hcheck, pure, Except.pure, Except.ok.injEq, exists_eq_left']
      constructor
      · rintro rfl
        exact ⟨by omega, by omega, rfl⟩
      · rintro ⟨-, -, rfl⟩
        rfl

/-- A saved record is there, and equal, until its time to live ends; other keys may change. -/
def RoundTrips (gcm : AesGcm) (ring : KeyRing sha256) (namePrefix : List Char) (redis : Redis)
    (saved : Nat) (iv : List UInt8) (id : Text) (s : BrowserSession) (ttlMs : Nat) : Prop :=
  ∃ redis', saveSession gcm ring namePrefix redis saved iv id s ttlMs = .ok redis' ∧
    ∀ (later : Redis) (t : Nat), t < saved + ttlMs →
      (∀ key, storeKey namePrefix .session id = .ok key → later key = redis' key) →
        getSession gcm ring namePrefix later t id = .ok (some s)

/-- What saving does, given that its parts succeed. -/
theorem saveSession_ok {saved : Nat} {iv : List UInt8} {id : Opaque} {s : BrowserSession}
    {ttlMs : Nat} {redis' : Redis} :
    saveSession gcm ring namePrefix redis saved iv id.text s ttlMs = .ok redis' ↔
      ∃ key envelope, storeKey namePrefix .session id.text = .ok key ∧
        encrypt gcm ring iv s.json key = .ok envelope ∧ 0 < ttlMs ∧ ttlMs ≤ 86400000 ∧
          redis' = redis.set saved key envelope ttlMs := by
  unfold saveSession
  rw [storeKey_of_random]
  generalize namePrefix ++ Kind.session.segment ++ asciiChars id.text = key
  show (putCommand gcm ring key iv s.json ttlMs false).bind _ = _ ↔ _
  constructor
  · intro h
    cases hput : putCommand gcm ring key iv s.json ttlMs false with
    | error e =>
      rw [hput] at h
      cases h
    | ok command =>
      obtain ⟨envelope, hencrypt, hpos, hday, rfl⟩ := putCommand_ok.mp hput
      rw [hput] at h
      exact ⟨key, envelope, rfl, hencrypt, hpos, hday, (Except.ok.inj h).symm⟩
  · rintro ⟨_, envelope, hkey, hencrypt, hpos, hday, rfl⟩
    obtain rfl := Except.ok.inj hkey
    rw [putCommand_ok.mpr ⟨envelope, hencrypt, hpos, hday, rfl⟩]
    rfl

theorem getSession_saved (hgcm : gcm.Correct) (hsha : ∀ bytes, (sha256 bytes).length = 32)
    {config : WebAuthConfig} {s : BrowserSession} (hs : Sound config s) {saved t ttlMs : Nat}
    {iv : List UInt8} {id : Opaque} {key envelope : List Char} {later : Redis}
    (hkey : storeKey namePrefix .session id.text = .ok key)
    (hencrypt : encrypt gcm ring iv s.json key = .ok envelope)
    (hlater : later key = redis.set saved key envelope ttlMs key) (ht : t < saved + ttlMs) :
    getSession gcm ring namePrefix later t id.text =
      .ok (if consistent s then some s else none) := by
  have hget : later.get t key = some envelope := by
    rw [Redis.get, hlater, Redis.set, Function.update_self]
    show (if t < saved + ttlMs then some envelope else none) = _
    rw [if_pos ht]
  have hopened := decrypt_encrypt hgcm hsha (json_ne_nil s) hencrypt
  have hreply : ((Command.get key).exec later t).1 = .value envelope := by
    rw [Command.exec, hget]
    rfl
  rw [getSession, hkey]
  show Except.ok _ = _
  rw [hreply, openSession, hopened, Option.bind_some, decodeSession_json hs]

/-- **When session records round-trip.** The record of accepted tokens is saved and read back
until its time to live ends if and only if its JSON has at most 131,072 bytes, it was live when it
was made, and the time to live is at most a day. -/
theorem session_round_trip (hgcm : gcm.Correct) (hsha : ∀ bytes, (sha256 bytes).length = 32)
    {config : WebAuthConfig} {s : BrowserSession} (hs : Built config s) (clock saved : Nat)
    {iv : List UInt8} (hiv : iv.length = 12) (id : Opaque) :
    RoundTrips gcm ring namePrefix redis saved iv id.text s (maximumAge s clock * 1000) ↔
      (utf8 s.json).length ≤ 131072 ∧ s.createdAt < s.idleExpiresAt ∧ maximumAge s clock ≤ 86400 := by
  have hsound := hs.sound
  have hage : 1 ≤ maximumAge s clock := le_max_left _ _
  constructor
  · rintro ⟨redis', hsave, hread⟩
    obtain ⟨key, envelope, hkey, hencrypt, -, httl, rfl⟩ := saveSession_ok.mp hsave
    obtain ⟨hsize, -, -⟩ := encrypt_ok.mp hencrypt
    have hget := hread _ saved (by omega) fun key _ => rfl
    rw [getSession_saved (t := saved) hgcm hsha hsound hkey hencrypt rfl (by omega)] at hget
    have hconsistent : consistent s = true := by
      by_contra hno
      rw [if_neg hno] at hget
      cases Except.ok.inj hget
    exact ⟨hsize, (consistent_iff hsound).mp hconsistent, by omega⟩
  · rintro ⟨hsize, hlive, hday⟩
    have hkey := storeKey_of_random namePrefix .session id
    generalize namePrefix ++ Kind.session.segment ++ asciiChars id.text = key at hkey
    obtain ⟨envelope, hencrypt⟩ : ∃ envelope, encrypt gcm ring iv s.json key = .ok envelope :=
      ⟨_, encrypt_ok.mpr ⟨hsize, hiv, rfl⟩⟩
    refine ⟨_, saveSession_ok.mpr ⟨_, _, hkey, hencrypt, by omega, by omega, rfl⟩, ?_⟩
    intro later t ht hlater
    rw [getSession_saved hgcm hsha hsound hkey hencrypt (hlater _ hkey) ht,
      if_pos ((consistent_iff hsound).mpr hlive)]

end

/-! ### A login with two tokens of one length -/

def smallConfig : WebAuthConfig where
  mode := .oidc
  issuer := text "https://issuer.example"
  clientId := text "web"
  allowedReturnPaths := [text "/"]
  sessionAbsoluteSeconds := 300
  sessionIdleSeconds := 60
  refreshBeforeSeconds := 5
  transactionSeconds := 60
  absolute := by decide
  idle := by decide
  refreshBefore := by decide
  transaction := by decide

/-- A token of so many letters. -/
def letters (n : Nat) : Text := List.replicate n 97

/-- A signed token of the issuer for the client: header, claims and a signature of
256 bytes. -/
def smallIdToken : Text :=
  text "eyJhbGciOiJSUzI1NiIsInR5cCI6IkpXVCJ9" ++ text "." ++
    text "eyJpc3MiOiJodHRwczovL2lzc3Vlci5leGFtcGxlIiwiYXVkIjoid2ViIiwic3Vi" ++
    text "IjoidXNlci0xIiwiaWF0IjowLCJleHAiOjM2MDB9" ++
    text "." ++ List.replicate 342 65

def smallResponse (n : Nat) : TokenResponse where
  claims := some { iss := some (text "https://issuer.example"), aud := .text (text "web")
                   sub := some (text "user-1"), name := none }
  accessToken := some (letters n)
  refreshToken := some (letters n)
  idToken := some smallIdToken
  tokenType := text "Bearer"
  expiresIn := some 3600

def smallTokens (n : Nat) : OidcTokenSet where
  subject := text "user-1"
  displayName := none
  accessToken := letters n
  refreshToken := some (letters n)
  idToken := some smallIdToken
  expiresAt := 3600000

def zeroOpaque : Opaque := ⟨List.replicate 32 0, rfl⟩

def smallSession (n : Nat) : BrowserSession := loginSession smallConfig (smallTokens n) zeroOpaque 1000

theorem validToken_letters {n : Nat} (hpos : 1 ≤ n) (hle : n ≤ 65536) :
    validToken (letters n) = true := by
  simp [validToken, letters, hpos, hle]

theorem validToken_smallIdToken : validToken smallIdToken = true := by
  decide +kernel

theorem smallResponse_accepted {n : Nat} (hpos : 1 ≤ n) (hle : n ≤ 65536) :
    exchange smallConfig 0 (smallResponse n) = some (smallTokens n) := by
  have htoken : (some (letters n)).filter validToken = some (letters n) :=
    Option.filter_some_pos (validToken_letters hpos hle)
  have haccess : (smallResponse n).accessToken.filter validToken = some (letters n) := htoken
  have hrefresh : (smallResponse n).refreshToken.filter validToken = some (letters n) := htoken
  have hid : (smallResponse n).idToken.filter validToken = some smallIdToken :=
    Option.filter_some_pos validToken_smallIdToken
  have hsubject : validateClaims smallConfig
      { iss := some (text "https://issuer.example"), aud := .text (text "web")
        sub := some (text "user-1"), name := none } = some (text "user-1") := by
    decide +kernel
  have hbearer : guard (isBearer (smallResponse n).tokenType = true) = some () := by
    have h : isBearer (text "Bearer") = true := by decide +kernel
    show guard (isBearer (text "Bearer") = true) = some ()
    rw [h]
    rfl
  have hclaims : (smallResponse n).claims = some
      { iss := some (text "https://issuer.example"), aud := .text (text "web")
        sub := some (text "user-1"), name := none } := rfl
  unfold exchange
  rw [bind_of_some hclaims, bind_of_some hsubject, bind_of_some haccess, bind_of_some hrefresh,
    bind_of_some hid, bind_of_some hbearer]
  rfl

theorem smallSession_built {n : Nat} (hpos : 1 ≤ n) (hle : n ≤ 65536) :
    Built smallConfig (smallSession n) :=
  .login ⟨0, by decide⟩ ⟨1000, by decide⟩ zeroOpaque (smallResponse_accepted hpos hle)

/-! A cipher that adds an empty tag, and a digest that pads. -/

def plainGcm : AesGcm where
  encipher _ _ _ source := (source, List.replicate 16 0)
  decipher _ _ _ ciphertext _ := some ciphertext

theorem plainGcm_correct : plainGcm.Correct where
  opens _ _ _ _ _ _ := rfl
  size _ _ _ _ := rfl
  tag _ _ _ _ := rfl

def padded (bytes : List UInt8) : List UInt8 := (bytes ++ List.replicate 32 0).take 32

theorem length_padded (bytes : List UInt8) : (padded bytes).length = 32 := by
  simp [padded]

def smallRing : KeyRing padded where
  active := List.replicate 32 1
  previous := []
  count := by decide
  length := by decide
  distinct := List.nodup_singleton _

theorem small_session_round_trip :
    RoundTrips plainGcm smallRing "corpuskit".toList (fun _ => none) 1000 (List.replicate 12 0)
      zeroOpaque.text (smallSession 1) (maximumAge (smallSession 1) 1000 * 1000) :=
  (session_round_trip plainGcm_correct length_padded (smallSession_built (by decide) (by decide))
    1000 1000 (by decide) zeroOpaque).mpr (by decide +kernel)

/-! ### Two tokens of the accepted length do not fit -/

theorem length_le_utf8 (text : List Char) : text.length ≤ (utf8 text).length := by
  induction text with
  | nil => exact le_refl _
  | cons c rest ih =>
    have hc : 0 < (String.utf8EncodeChar c).length := by
      rw [String.length_utf8EncodeChar]
      exact c.utf8Size_pos
    rw [utf8, List.flatMap_cons, List.length_append, List.length_cons]
    rw [utf8] at ih
    omega

theorem length_quoteUnits_letters (n : Nat) : (quoteUnits (letters n)).length = n := by
  have hunit : (quoteUnit 97).length = 1 := by decide
  induction n with
  | zero => rfl
  | succ n ih =>
    cases n with
    | zero => exact hunit
    | succ n =>
      have hstep : quoteUnits (letters (n + 2)) = quoteUnit 97 ++ quoteUnits (letters (n + 1)) := rfl
      rw [hstep, List.length_append, hunit, ih]
      omega

theorem sum_le_writeFields (fields : List (List CodeUnit × Cell)) :
    (fields.map fun field => (writeCell field.2).length).sum ≤ (writeFields fields).length := by
  induction fields using writeFields.induct with
  | case1 => exact le_refl _
  | case2 key cell =>
    simp only [List.map_cons, List.map_nil, List.sum_cons, List.sum_nil, writeFields,
      List.length_append, List.length_cons]
    omega
  | case3 key cell field fields ih =>
    rw [writeFields, List.map_cons, List.sum_cons]
    simp only [List.length_append, List.length_cons] at ih ⊢
    omega

theorem smallSession_size (n : Nat) : 2 * n < (utf8 (smallSession n).json).length := by
  have htoken : (writeCell (.text (letters n))).length = n + 2 := by
    rw [writeCell, quote, List.length_cons, List.length_append, length_quoteUnits_letters]
    rfl
  have hfields : 2 * n < ((smallSession n).fields.map fun f => (writeCell f.2).length).sum := by
    simp only [BrowserSession.fields, SessionKey.all, List.filterMap_cons, BrowserSession.cell,
      smallSession, loginSession, smallTokens, Option.filter_none, Option.map_none, Option.map_some,
      List.map_cons, List.sum_cons, htoken]
    omega
  have hjson : (writeFields (smallSession n).fields).length ≤ (smallSession n).json.length := by
    rw [BrowserSession.json, stringify, List.length_cons, List.length_append]
    omega
  calc 2 * n < ((smallSession n).fields.map fun f => (writeCell f.2).length).sum := hfields
    _ ≤ (writeFields (smallSession n).fields).length := sum_le_writeFields _
    _ ≤ (smallSession n).json.length := hjson
    _ ≤ (utf8 (smallSession n).json).length := length_le_utf8 _

theorem largest_tokens_lost :
    exchange smallConfig 0 (smallResponse 65536) = some (smallTokens 65536) ∧
      Built smallConfig (smallSession 65536) ∧
        ¬ RoundTrips plainGcm smallRing "corpuskit".toList (fun _ => none) 1000
          (List.replicate 12 0) zeroOpaque.text (smallSession 65536)
          (maximumAge (smallSession 65536) 1000 * 1000) := by
  refine ⟨smallResponse_accepted (by decide) (by decide),
    smallSession_built (by decide) (by decide), ?_⟩
  rintro ⟨redis', hsave, -⟩
  obtain ⟨key, envelope, -, hencrypt, -⟩ := saveSession_ok.mp hsave
  obtain ⟨hsize, -, -⟩ := encrypt_ok.mp hencrypt
  have hlarge := smallSession_size 65536
  unfold maximumPlaintextBytes at hsize
  omega

end CorpusKit.Web
