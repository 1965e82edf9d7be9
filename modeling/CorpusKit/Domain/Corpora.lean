import CorpusKit.Domain.Artifacts
import CorpusKit.Library.Json
import CorpusKit.Library.Words

/-! # Corpus import contracts and normalization rules

Unicode normalization and SHA-256 are parameters: `nfc` stands for
`unicodedata.normalize("NFC", ·)` and `sha256` for the digest of the UTF-8
encoding of a text. What the rules need of `nfc` is collected in `Nfc`. -/

namespace CorpusKit

/-- The documented facts about Normalization Form C that the import rules use. -/
structure Nfc (nfc : List Char → List Char) : Prop where
  idem : ∀ s, nfc (nfc s) = nfc s
  /-- A substring of a normalized text is normalized. -/
  part : ∀ {s t}, nfc t = t → s <:+: t → nfc s = s
  /-- A space never combines with its neighbours. -/
  joined : ∀ {s t}, nfc s = s → nfc t = t → nfc (s ++ ' ' :: t) = s ++ ' ' :: t

/-- The characters `str.split` separates words at. -/
def isSpace (c : Char) : Bool :=
  let n := c.toNat
  decide (9 ≤ n ∧ n ≤ 13) || decide (28 ≤ n ∧ n ≤ 32) || n == 0x85 || n == 0xA0 || n == 0x1680 ||
    decide (0x2000 ≤ n ∧ n ≤ 0x200A) || n == 0x2028 || n == 0x2029 || n == 0x202F || n == 0x205F ||
    n == 0x3000

/-- `text.replace("\r\n", "\n").replace("\r", "\n")`. -/
def newlines : List Char → List Char
  | [] => []
  | '\r' :: '\n' :: text => '\n' :: newlines text
  | '\r' :: text => '\n' :: newlines text
  | c :: text => c :: newlines text

structure CorpusImportLimits where
  maxSentences : Nat
  maxSentenceCharacters : Nat
  deriving DecidableEq, Repr

/-- A request whose language has been normalized. -/
structure CorpusImportRequest where
  language : String
  sentences : List String
  deriving DecidableEq, Repr

/-- `PreparedCorpus`: the normalized sentences in ordinal order. -/
structure PreparedCorpus where
  language : String
  sentences : List String
  contentSha256 : Sha256
  deriving DecidableEq, Repr

/-! ## Languages -/

/-- `value.strip()`. -/
def strip (value : List Char) : List Char :=
  ((value.dropWhile isSpace).reverse.dropWhile isSpace).reverse

/-- `str.lower` as far as a language code can tell: the ASCII letters, and the
Kelvin sign, the only other character whose lower case is one ASCII letter. -/
def lowerChar (c : Char) : Char := if c.toNat = 0x212A then 'k' else c.toLower

def isLowerAlnum (c : Char) : Bool := c.isLower || c.isDigit

/-- `[a-z][a-z0-9]*(?:-[a-z0-9]+)*`. -/
def isLanguageCode (value : List Char) : Bool :=
  (value.splitOn '-').all (fun part => !part.isEmpty && part.all isLowerAlnum) &&
    value.head?.any Char.isLower

/-- `CorpusImportRequest.normalize_language`, after the length check of the field. -/
def normalizeLanguage (value : String) : Option String :=
  let normalized := (strip value.toList).map fun c => if c = '_' then '-' else lowerChar c
  if 1 ≤ value.length ∧ value.length ≤ 64 ∧ isLanguageCode normalized = true
  then some (String.ofList normalized) else none

/-- `CorpusImportRequest(language=..., sentences=...)`. -/
def corpusImportRequest (language : String) (sentences : List String) :
    Option CorpusImportRequest :=
  (normalizeLanguage language).map fun code => ⟨code, sentences⟩

/-! ## Preparation -/

variable (nfc : List Char → List Char) (sha256 : List Char → Sha256)

/-- Normalize Unicode and whitespace. -/
def normalizeSentence (text : String) : String :=
  String.ofList (Words.join ' ' (Words.words isSpace (nfc (newlines text.toList))))

/-- The loop of `prepare_corpus`, from the sentences prepared so far. -/
def prepareSentences (limits : CorpusImportLimits) : List String → List String →
    Except Error (List String)
  | prepared, [] => .ok prepared
  | prepared, original :: rest =>
    let normalized := normalizeSentence nfc original
    if normalized = "" ∨ normalized ∈ prepared then prepareSentences limits prepared rest
    else if limits.maxSentenceCharacters < normalized.length then
      .error (.value ("a sentence exceeds the configured character limit (" ++
        toString limits.maxSentenceCharacters ++ ")"))
    else prepareSentences limits (prepared ++ [normalized]) rest

/-- The canonical encoding of a corpus. -/
def canonicalCorpus (language : String) (sentences : List String) : List Char :=
  Json.dumps (.obj [("language".toList, .str language.toList),
    ("sentences".toList, .arr (sentences.map fun sentence => .str sentence.toList))])

/-- Validate, normalize, de-duplicate and hash a corpus import. -/
def prepareCorpus (limits : CorpusImportLimits) (request : CorpusImportRequest) :
    Except Error PreparedCorpus := do
  if limits.maxSentences < request.sentences.length then
    .error (.value ("sentence count exceeds the configured limit (" ++
      toString limits.maxSentences ++ ")"))
  else
    let sentences ← prepareSentences nfc limits [] request.sentences
    if sentences = [] then .error (.value "a corpus must contain at least one non-blank sentence")
    else .ok ⟨request.language, sentences, sha256 (canonicalCorpus request.language sentences)⟩

/-! ## Normal forms -/

variable {nfc sha256}

theorem newlines_of_not_mem {text : List Char} (h : '\r' ∉ text) : newlines text = text := by
  fun_induction newlines text with
  | case1 => rfl
  | case2 text ih => exact absurd List.mem_cons_self h
  | case3 text hne ih => exact absurd List.mem_cons_self h
  | case4 c text hcrlf hcr ih => rw [ih fun hm => h (List.mem_cons_of_mem _ hm)]

/-- Normalized words joined by spaces are normalized. -/
theorem Nfc.join (h : Nfc nfc) {ws : List (List Char)} (hws : ∀ w ∈ ws, nfc w = w)
    (hnil : nfc [] = []) : nfc (Words.join ' ' ws) = Words.join ' ' ws := by
  induction ws with
  | nil => exact hnil
  | cons w ws ih =>
    have hrest := ih fun v hv => hws v (List.mem_cons_of_mem _ hv)
    cases ws with
    | nil => exact hws w List.mem_cons_self
    | cons v ws => exact h.joined (hws w List.mem_cons_self) hrest

/-- A normalized sentence consists of normalized words without carriage returns. -/
theorem normalizeSentence_idem (h : Nfc nfc) (text : String) :
    normalizeSentence nfc (normalizeSentence nfc text) = normalizeSentence nfc text := by
  unfold normalizeSentence
  set ws := Words.words isSpace (nfc (newlines text.toList)) with hws
  have hword : ∀ w ∈ ws, Words.IsWord isSpace w ∧ nfc w = w := fun w hw =>
    ⟨(Words.mem_words hw).1, h.part (h.idem _) (Words.mem_words hw).2⟩
  have hnil : nfc [] = [] := h.part (h.idem (newlines text.toList)) List.nil_infix
  have hreturn : '\r' ∉ Words.join ' ' ws := by
    intro hmem
    obtain hc | ⟨w, hw, hc⟩ := Words.mem_join hmem
    · revert hc; decide
    · have hfree := (hword w hw).1.free _ hc
      revert hfree; decide
  rw [String.toList_ofList, newlines_of_not_mem hreturn, h.join (fun w hw => (hword w hw).2) hnil,
    Words.words_join (by decide) fun w hw => (hword w hw).1]

/-! ## Prepared corpora -/

/-- Sentences as preparation leaves them: distinct, non-blank and normalized. -/
structure Plain (nfc : List Char → List Char) (sentences : List String) : Prop where
  distinct : sentences.Nodup
  nonblank : ∀ s ∈ sentences, s ≠ ""
  normalized : ∀ s ∈ sentences, normalizeSentence nfc s = s

theorem plain_nil : Plain nfc [] := ⟨List.nodup_nil, nofun, nofun⟩

theorem Plain.snoc {sentences : List String} {s : String} (h : Plain nfc sentences)
    (hnew : s ∉ sentences) (hne : s ≠ "") (hnorm : normalizeSentence nfc s = s) :
    Plain nfc (sentences ++ [s]) where
  distinct := by
    rw [← List.concat_eq_append, List.nodup_concat]
    exact ⟨hnew, h.distinct⟩
  nonblank t ht := by
    obtain ht | ht := List.mem_append.mp ht
    · exact h.nonblank t ht
    · rw [List.mem_singleton.mp ht]; exact hne
  normalized t ht := by
    obtain ht | ht := List.mem_append.mp ht
    · exact h.normalized t ht
    · rw [List.mem_singleton.mp ht]; exact hnorm

/-- One step of the loop: the sentence is dropped, or kept in its normal form. -/
theorem prepareSentences_cons {limits : CorpusImportLimits} {prepared rest out : List String}
    {original : String}
    (h : prepareSentences nfc limits prepared (original :: rest) = .ok out) :
    ((normalizeSentence nfc original = "" ∨ normalizeSentence nfc original ∈ prepared) ∧
      prepareSentences nfc limits prepared rest = .ok out) ∨
    (normalizeSentence nfc original ≠ "" ∧ normalizeSentence nfc original ∉ prepared ∧
      prepareSentences nfc limits (prepared ++ [normalizeSentence nfc original]) rest = .ok out) := by
  unfold prepareSentences at h
  dsimp only at h
  split at h
  · next hdrop => exact .inl ⟨hdrop, h⟩
  · next hkeep =>
    rw [not_or] at hkeep
    split at h
    · cases h
    · exact .inr ⟨hkeep.1, hkeep.2, h⟩

theorem prepareSentences_plain (hnfc : Nfc nfc) {limits : CorpusImportLimits}
    {prepared sentences out : List String} (hp : Plain nfc prepared)
    (h : prepareSentences nfc limits prepared sentences = .ok out) : Plain nfc out := by
  induction sentences generalizing prepared with
  | nil =>
    cases h
    exact hp
  | cons original rest ih =>
    obtain ⟨-, h⟩ | ⟨hne, hnew, h⟩ := prepareSentences_cons h
    · exact ih hp h
    · exact ih (hp.snoc hnew hne (normalizeSentence_idem hnfc original)) h

/-- The sentences prepared so far stay in front, and no more are added than given. -/
theorem prepareSentences_extends {limits : CorpusImportLimits} {prepared sentences out : List String}
    (h : prepareSentences nfc limits prepared sentences = .ok out) :
    ∃ kept, out = prepared ++ kept ∧ kept.length ≤ sentences.length := by
  induction sentences generalizing prepared with
  | nil =>
    cases h
    exact ⟨[], (List.append_nil _).symm, Nat.le_refl _⟩
  | cons original rest ih =>
    obtain ⟨-, h⟩ | ⟨-, -, h⟩ := prepareSentences_cons h
    · obtain ⟨kept, hout, hlen⟩ := ih h
      exact ⟨kept, hout, Nat.le_succ_of_le hlen⟩
    · obtain ⟨kept, hout, hlen⟩ := ih h
      refine ⟨normalizeSentence nfc original :: kept, ?_, Nat.succ_le_succ hlen⟩
      rw [hout, List.append_assoc, List.singleton_append]

/-- Preparation changes nothing exactly when there is nothing to normalize, no
blank and no repetition. -/
theorem prepareSentences_same {limits : CorpusImportLimits} {prepared sentences out : List String}
    (hp : Plain nfc prepared) (h : prepareSentences nfc limits prepared sentences = .ok out) :
    out = prepared ++ sentences ↔ Plain nfc (prepared ++ sentences) := by
  induction sentences generalizing prepared with
  | nil =>
    cases h
    rw [List.append_nil]
    exact ⟨fun _ => hp, fun _ => rfl⟩
  | cons original rest ih =>
    obtain ⟨hdrop, h⟩ | ⟨hne, hnew, h⟩ := prepareSentences_cons h
    · refine ⟨fun hout => ?_, fun hplain => ?_⟩
      · -- a dropped sentence leaves the result too short
        obtain ⟨kept, hkept, hlen⟩ := prepareSentences_extends h
        have hsame := congrArg List.length (hkept.symm.trans hout)
        simp only [List.length_append, List.length_cons] at hsame
        omega
      · have hmem : original ∈ prepared ++ original :: rest :=
          List.mem_append_right _ List.mem_cons_self
        rw [hplain.normalized _ hmem] at hdrop
        obtain hblank | hseen := hdrop
        · exact absurd hblank (hplain.nonblank _ hmem)
        · have hdistinct := List.disjoint_of_nodup_append hplain.distinct
          exact absurd List.mem_cons_self (hdistinct hseen)
    · have hsplit : prepared ++ original :: rest = prepared ++ [original] ++ rest := by
        rw [List.append_assoc, List.singleton_append]
      rw [hsplit]
      refine ⟨fun hout => ?_, fun hplain => ?_⟩
      · obtain ⟨kept, hkept, -⟩ := prepareSentences_extends h
        have hsame : prepared ++ [normalizeSentence nfc original] = prepared ++ [original] :=
          List.append_inj_left (hkept.symm.trans hout) (by simp)
        have hnorm : normalizeSentence nfc original = original := by simpa using hsame
        rw [hnorm] at h hne hnew
        exact (ih (hp.snoc hnew hne hnorm) h).mp hout
      · have hmem : original ∈ prepared ++ [original] ++ rest := by simp
        have hnorm := hplain.normalized _ hmem
        rw [hnorm] at h hne hnew
        exact (ih (hp.snoc hnew hne hnorm) h).mpr hplain

theorem prepareCorpus_ok {limits : CorpusImportLimits} {request : CorpusImportRequest}
    {prepared : PreparedCorpus} (h : prepareCorpus nfc sha256 limits request = .ok prepared) :
    prepareSentences nfc limits [] request.sentences = .ok prepared.sentences ∧
      prepared.language = request.language ∧ prepared.sentences ≠ [] ∧
      prepared.contentSha256 = sha256 (canonicalCorpus prepared.language prepared.sentences) := by
  unfold prepareCorpus at h
  split at h
  · cases h
  · cases hs : prepareSentences nfc limits [] request.sentences with
    | error e =>
      rw [hs] at h
      cases h
    | ok sentences =>
      rw [hs] at h
      change (if sentences = [] then _ else _) = _ at h
      split at h
      · cases h
      · next hne =>
        cases h
        exact ⟨rfl, rfl, hne, rfl⟩

/-- What a stored version owes its content. -/
structure PreparedCorpus.WellFormed (nfc : List Char → List Char) (sha256 : List Char → Sha256)
    (prepared : PreparedCorpus) : Prop where
  nonempty : prepared.sentences ≠ []
  plain : Plain nfc prepared.sentences
  digest : prepared.contentSha256 = sha256 (canonicalCorpus prepared.language prepared.sentences)

theorem prepareCorpus_wellFormed (hnfc : Nfc nfc) {limits : CorpusImportLimits}
    {request : CorpusImportRequest} {prepared : PreparedCorpus}
    (h : prepareCorpus nfc sha256 limits request = .ok prepared) :
    prepared.WellFormed nfc sha256 := by
  obtain ⟨hs, -, hne, hdigest⟩ := prepareCorpus_ok h
  exact ⟨hne, prepareSentences_plain hnfc plain_nil hs, hdigest⟩

theorem textValue_injective :
    Function.Injective fun sentence : String => Json.Value.str sentence.toList := by
  intro a b h
  exact String.toList_injective (Json.Value.str.inj h)

theorem sortedItems_texts (sentences : List String) :
    Json.sortedItems (sentences.map fun sentence => .str sentence.toList) =
      sentences.map fun sentence => .str sentence.toList := by
  induction sentences with
  | nil => rfl
  | cons sentence rest ih => simp only [List.map_cons, Json.sortedItems, Json.Value.sorted, ih]

/-- The encoding of a corpus determines it. -/
theorem canonicalCorpus_injective {language language' : String} {sentences sentences' : List String}
    (h : canonicalCorpus language sentences = canonicalCorpus language' sentences') :
    language = language' ∧ sentences = sentences' := by
  have hkeys : "language".toList ≠ "sentences".toList := by simp
  have hsorted := Json.dumps_injective h
  simp only [Json.Value.sorted, Json.sortedFields, Json.Value.obj.injEq, sortedItems_texts]
    at hsorted
  -- the two sorted field lists are permutations of the two fields
  have hperm := (List.perm_insertionSort _ _).symm.trans
    ((List.Perm.of_eq hsorted).trans (List.perm_insertionSort _ _))
  have hlanguage := hperm.mem_iff.mp List.mem_cons_self
  have hsentences := hperm.mem_iff.mp (List.mem_cons_of_mem _ List.mem_cons_self)
  simp only [List.mem_cons, Prod.mk.injEq, hkeys, hkeys.symm, List.not_mem_nil, false_and, true_and,
    or_false, false_or, Json.Value.str.injEq, Json.Value.arr.injEq] at hlanguage hsentences
  refine ⟨String.toList_injective hlanguage, ?_⟩
  exact List.map_injective_iff.mpr textValue_injective hsentences

/-! ## Preparing again -/

theorem strip_of_free {value : List Char} (h : ∀ c ∈ value, isSpace c = false) :
    strip value = value := by
  have hfront : value.dropWhile isSpace = value := by
    cases value with
    | nil => rfl
    | cons c value => simp [h c List.mem_cons_self]
  have hback : value.reverse.dropWhile isSpace = value.reverse := by
    cases hrev : value.reverse with
    | nil => rfl
    | cons c rest =>
      have hc : c ∈ value := by
        rw [← List.mem_reverse, hrev]
        exact List.mem_cons_self
      simp [h c hc]
  rw [strip, hfront, hback, List.reverse_reverse]

theorem length_strip_le (value : List Char) : (strip value).length ≤ value.length := by
  have hfront := (List.dropWhile_suffix isSpace (l := value)).length_le
  have hback := (List.dropWhile_suffix isSpace (l := (value.dropWhile isSpace).reverse)).length_le
  rw [List.length_reverse] at hback
  rw [strip, List.length_reverse]
  exact hback.trans hfront

theorem isLowerAlnum_ascii {c : Char} (h : isLowerAlnum c = true) : c.toNat < 128 := by
  delta isLowerAlnum Char.isLower Char.isDigit at h
  simp only [Bool.or_eq_true, Bool.and_eq_true, decide_eq_true_eq] at h
  rcases h with ⟨-, h⟩ | ⟨-, h⟩
  · exact Nat.lt_of_le_of_lt (UInt32.le_iff_toNat_le.mp h) (by decide)
  · exact Nat.lt_of_le_of_lt (UInt32.le_iff_toNat_le.mp h) (by decide)

/-- What a language code is made of stays as it is when a code is normalized. -/
def Settled (c : Char) : Prop :=
  isSpace c = false ∧ (if c = '_' then '-' else lowerChar c) = c

instance (c : Char) : Decidable (Settled c) := inferInstanceAs (Decidable (_ ∧ _))

theorem isLowerAlnum_settled {c : Char} (h : isLowerAlnum c = true) : Settled c := by
  have hall : ∀ n < 128, isLowerAlnum (Char.ofNat n) = true → Settled (Char.ofNat n) := by
    decide +kernel
  have hc := hall c.toNat (isLowerAlnum_ascii h)
  rw [Char.ofNat_toNat] at hc
  exact hc h

theorem isLanguageCode_settled {value : List Char} (h : isLanguageCode value = true) :
    ∀ c ∈ value, Settled c := by
  intro c hc
  rw [isLanguageCode, Bool.and_eq_true, List.all_eq_true] at h
  by_cases hdash : c = '-'
  · subst hdash
    decide
  · obtain ⟨part, hpart, hmem⟩ := Words.mem_of_splitOnP (p := (· == '-')) hc (by simpa using hdash)
    have hpart' := h.1 part hpart
    rw [Bool.and_eq_true, List.all_eq_true] at hpart'
    exact isLowerAlnum_settled (hpart'.2 c hmem)

/-- A normalized language is its own normal form. -/
theorem normalizeLanguage_idem {value code : String} (h : normalizeLanguage value = some code) :
    normalizeLanguage code = some code := by
  unfold normalizeLanguage at h
  dsimp only at h
  split at h
  · next hok =>
    obtain ⟨hlower, hupper, hcode⟩ := hok
    rw [Option.some.injEq] at h
    set normalized := (strip value.toList).map fun c => if c = '_' then '-' else lowerChar c with hn
    have hsettled := isLanguageCode_settled hcode
    have hsame : ((strip code.toList).map fun c => if c = '_' then '-' else lowerChar c) =
        normalized := by
      rw [← h, String.toList_ofList, strip_of_free fun c hc => (hsettled c hc).1]
      exact List.map_congr_left (fun c hc => (hsettled c hc).2) |>.trans (List.map_id _)
    have hlength : code.length = normalized.length := by rw [← h, String.length_ofList]
    have hle : normalized.length ≤ value.length := by
      rw [hn, List.length_map, ← String.length_toList]
      exact length_strip_le _
    have hne : 1 ≤ normalized.length := by
      rw [isLanguageCode, Bool.and_eq_true] at hcode
      cases hnil : normalized with
      | nil => rw [hnil] at hcode; exact absurd hcode.2 (by decide)
      | cons c rest => exact Nat.succ_pos _
    unfold normalizeLanguage
    dsimp only
    rw [hsame, if_pos ⟨by omega, by omega, hcode⟩, h]
  · cases h

/-- Sentences that need no normalization and are short enough are prepared as they are. -/
theorem prepareSentences_accepts {limits : CorpusImportLimits} {prepared sentences : List String}
    (hplain : Plain nfc (prepared ++ sentences))
    (hshort : ∀ s ∈ sentences, s.length ≤ limits.maxSentenceCharacters) :
    prepareSentences nfc limits prepared sentences = .ok (prepared ++ sentences) := by
  induction sentences generalizing prepared with
  | nil => rw [List.append_nil]; rfl
  | cons s rest ih =>
    have hmem : s ∈ prepared ++ s :: rest := List.mem_append_right _ List.mem_cons_self
    have hfresh : s ∉ prepared := fun hs =>
      List.disjoint_of_nodup_append hplain.distinct hs List.mem_cons_self
    have hfits := hshort s List.mem_cons_self
    have hsplit : prepared ++ s :: rest = prepared ++ [s] ++ rest := by
      rw [List.append_assoc, List.singleton_append]
    have hrest := @ih (prepared ++ [s]) (hsplit ▸ hplain)
      fun t ht => hshort t (List.mem_cons_of_mem _ ht)
    rw [prepareSentences, hplain.normalized s hmem]
    simp only [hplain.nonblank s hmem, hfresh, or_self, if_false, Nat.not_lt.mpr hfits]
    rw [hrest, hsplit]

theorem prepareSentences_short {limits : CorpusImportLimits} {prepared sentences out : List String}
    (hold : ∀ s ∈ prepared, s.length ≤ limits.maxSentenceCharacters)
    (h : prepareSentences nfc limits prepared sentences = .ok out) :
    ∀ s ∈ out, s.length ≤ limits.maxSentenceCharacters := by
  induction sentences generalizing prepared with
  | nil =>
    cases h
    exact hold
  | cons original rest ih =>
    unfold prepareSentences at h
    dsimp only at h
    split at h
    · exact ih hold h
    · split at h
      · cases h
      · next hfits =>
        refine ih (fun s hs => ?_) h
        obtain hs | hs := List.mem_append.mp hs
        · exact hold s hs
        · rw [List.mem_singleton.mp hs]
          exact Nat.le_of_not_lt hfits

theorem prepareCorpus_count {limits : CorpusImportLimits} {request : CorpusImportRequest}
    {prepared : PreparedCorpus} (h : prepareCorpus nfc sha256 limits request = .ok prepared) :
    prepared.sentences.length ≤ limits.maxSentences := by
  obtain ⟨hs, -, -, -⟩ := prepareCorpus_ok h
  obtain ⟨kept, hkept, hlen⟩ := prepareSentences_extends hs
  rw [hkept, List.nil_append]
  refine hlen.trans (Nat.le_of_not_lt fun hmany => ?_)
  rw [prepareCorpus, if_pos hmany] at h
  cases h

/-- A prepared corpus, given as a request again, is prepared as it is. -/
theorem prepareCorpus_again (hnfc : Nfc nfc) {limits : CorpusImportLimits}
    {request : CorpusImportRequest} {prepared : PreparedCorpus}
    (h : prepareCorpus nfc sha256 limits request = .ok prepared) :
    prepareCorpus nfc sha256 limits ⟨prepared.language, prepared.sentences⟩ = .ok prepared := by
  obtain ⟨hs, -, hne, hdigest⟩ := prepareCorpus_ok h
  have hcount := prepareCorpus_count h
  have hplain := prepareSentences_plain hnfc plain_nil hs
  have hagain := @prepareSentences_accepts nfc limits [] _  hplain
    (prepareSentences_short (fun _ h => absurd h List.not_mem_nil) hs)
  rw [List.nil_append] at hagain
  unfold prepareCorpus
  rw [if_neg (Nat.not_lt.mpr hcount), hagain]
  show (if prepared.sentences = [] then _ else _) = _
  rw [if_neg hne, ← hdigest]

/-- The only space in a normalized sentence is the blank. -/
theorem normalized_blank {text : String} (h : normalizeSentence nfc text = text) :
    ∀ c ∈ text.toList, isSpace c = true → c = ' ' := by
  intro c hc hspace
  rw [← h, normalizeSentence, String.toList_ofList] at hc
  obtain hc | ⟨w, hw, hc⟩ := Words.mem_join hc
  · exact hc
  · rw [(Words.mem_words hw).1.free c hc] at hspace
    cases hspace

end CorpusKit
