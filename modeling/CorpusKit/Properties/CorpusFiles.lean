import CorpusKit.Services.Exports
import CorpusKit.Properties.Corpora

/-! # Corpus files written and read back

What the import of an exported version prepares, and what a CSV reader finds in
the cells of an export. -/

namespace CorpusKit

variable {nfc : List Char → List Char} {sha256 : List Char → Sha256}
variable {loads : List Char → Option Json.Value}

/-! ## The sentences of a version -/

/-- The stored sentences of a version, in any order. -/
def PreparedCorpus.Stores (prepared : PreparedCorpus) (snapshots : List SentenceSnapshot) : Prop :=
  (snapshots.map fun s => (s.normalizedText, s.ordinal)).Perm prepared.sentences.zipIdx

theorem zipIdx_ascending (texts : List String) :
    texts.zipIdx.Pairwise fun a b => a.2 ≤ b.2 := by
  have hrange : (texts.zipIdx.map Prod.snd).Pairwise (· ≤ ·) := by
    rw [List.zipIdx_map_snd]
    exact List.pairwise_le_range'
  exact List.pairwise_map.mp hrange

theorem inOrder_stores {prepared : PreparedCorpus} {snapshots : List SentenceSnapshot}
    (h : prepared.Stores snapshots) :
    (inOrder snapshots).map (fun s => (s.normalizedText, s.ordinal)) =
      prepared.sentences.zipIdx := by
  have hsorted := List.perm_insertionSort (fun a b : SentenceSnapshot => a.ordinal ≤ b.ordinal)
    snapshots
  have hperm : ((inOrder snapshots).map fun s => (s.normalizedText, s.ordinal)).Perm
      prepared.sentences.zipIdx := (hsorted.map _).trans h
  refine @List.Perm.eq_of_pairwise _ (fun a b => a.2 ≤ b.2) _ _ ?_ ?_ (zipIdx_ascending _) hperm
  · rintro ⟨a, i⟩ ⟨b, j⟩ ha hb hij hji
    have hsame : i = j := Nat.le_antisymm hij hji
    subst hsame
    -- one ordinal, one sentence
    have ha' := List.mem_zipIdx_iff_getElem?.mp (hperm.mem_iff.mp ha)
    have hb' := List.mem_zipIdx_iff_getElem?.mp hb
    have htext : a = b := Option.some.inj (ha'.symm.trans hb')
    rw [htext]
  · refine List.pairwise_map.mpr ?_
    exact List.pairwise_insertionSort (fun a b : SentenceSnapshot => a.ordinal ≤ b.ordinal) snapshots

theorem inOrder_texts {prepared : PreparedCorpus} {snapshots : List SentenceSnapshot}
    (h : prepared.Stores snapshots) :
    (inOrder snapshots).map (fun s => s.normalizedText) = prepared.sentences := by
  have hfirst := congrArg (List.map Prod.fst) (inOrder_stores h)
  rw [List.map_map, List.zipIdx_map_fst] at hfirst
  exact hfirst

theorem isSpace_of_isLineBoundary {c : Char} (h : isLineBoundary c = true) :
    isSpace c = true ∧ c ≠ ' ' := by
  simp only [isLineBoundary, Bool.or_eq_true, decide_eq_true_eq, beq_iff_eq] at h
  refine ⟨?_, ?_⟩
  · simp only [isSpace, Bool.or_eq_true, decide_eq_true_eq, beq_iff_eq]
    omega
  · rintro rfl
    revert h
    decide

/-- A normalized sentence is one line. -/
theorem normalized_line {text : String} (h : normalizeSentence nfc text = text) :
    ∀ c ∈ text.toList, isLineBoundary c = false := by
  intro c hc
  by_contra hboundary
  obtain ⟨hspace, hne⟩ := isSpace_of_isLineBoundary (Bool.not_eq_false _ ▸ hboundary)
  exact hne (normalized_blank h c hc hspace)

theorem isLineBoundary_of_isBreak {c : Char} (h : Csv.isBreak c = true) :
    isLineBoundary c = true := by
  simp only [Csv.isBreak, Bool.or_eq_true, beq_iff_eq] at h
  rcases h with rfl | rfl <;> decide

/-! ## Bytes -/

theorem decodeUtf8_encodeUtf8 (text : List Char) : decodeUtf8 (encodeUtf8 text) = some text := by
  show (text.utf8Encode.utf8Decode?).map Array.toList = some text
  rw [List.utf8Decode?_utf8Encode]
  rfl

theorem encodeUtf8_injective {text text' : List Char} (h : encodeUtf8 text = encodeUtf8 text') :
    text = text' := by
  have hdecoded := congrArg decodeUtf8 h
  rw [decodeUtf8_encodeUtf8, decodeUtf8_encodeUtf8] at hdecoded
  exact Option.some.inj hdecoded

theorem decodeUtf8Sig_encodeUtf8 (text : List Char) :
    decodeUtf8Sig (encodeUtf8 text) = some (dropMark text) := by
  rw [decodeUtf8Sig, decodeUtf8_encodeUtf8]
  rfl

theorem encodeUtf8_ne_nil {text : List Char} (h : text ≠ []) : encodeUtf8 text ≠ [] := by
  cases text with
  | nil => exact absurd rfl h
  | cons c text =>
    have hpos : 0 < (String.utf8EncodeChar c).length := by
      rw [String.length_utf8EncodeChar]
      exact c.utf8Size_pos
    simp only [encodeUtf8, List.flatMap_cons, ne_eq, List.append_eq_nil_iff, not_and]
    intro hnil
    rw [hnil] at hpos
    exact absurd hpos (Nat.lt_irrefl 0)

/-! ## Text exports -/

theorem join_lines {texts : List (List Char)} (hne : texts ≠ []) :
    Words.join '\n' texts ++ ['\n'] = Lines.joined texts := by
  induction texts with
  | nil => exact absurd rfl hne
  | cons text texts ih =>
    cases texts with
    | nil => simp [Words.join, Lines.joined]
    | cons next texts =>
      have hrest := ih (List.cons_ne_nil _ _)
      show (text ++ '\n' :: Words.join '\n' (next :: texts)) ++ ['\n'] =
        (text ++ ['\n']) ++ Lines.joined (next :: texts)
      rw [← hrest]
      simp

/-- What the import does with a mark at the start of the first sentence. -/
def dropFirstMark : List (List Char) → List (List Char)
  | [] => []
  | text :: texts => dropMark text :: texts

theorem dropMark_append {text : List Char} (h : text ≠ []) (rest : List Char) :
    dropMark (text ++ rest) = dropMark text ++ rest := by
  cases text with
  | nil => exact absurd rfl h
  | cons c text =>
    simp only [List.cons_append, dropMark]
    split <;> rfl

theorem dropMark_joined {texts : List (List Char)} (h : ∀ text ∈ texts, text ≠ []) :
    dropMark (Lines.joined texts) = Lines.joined (dropFirstMark texts) := by
  cases texts with
  | nil => rfl
  | cons text texts =>
    have hne := h text List.mem_cons_self
    show dropMark ((text ++ ['\n']) ++ Lines.joined texts) =
      (dropMark text ++ ['\n']) ++ Lines.joined texts
    rw [List.append_assoc, List.append_assoc, dropMark_append hne]

theorem mem_dropMark {c : Char} {text : List Char} (h : c ∈ dropMark text) : c ∈ text := by
  cases text with
  | nil => exact h
  | cons d text =>
    simp only [dropMark] at h
    split at h
    · exact List.mem_cons_of_mem _ h
    · exact h

/-- The lines of an exported version: its sentences, the first one without a mark. -/
theorem splitlines_exportTxt {prepared : PreparedCorpus} (h : prepared.WellFormed nfc sha256)
    {snapshots : List SentenceSnapshot} (hstored : prepared.Stores snapshots) :
    (decodeUtf8Sig (buildExport version snapshots .txt).content).map
        (Lines.splitlines isLineBoundary false) =
      some (dropFirstMark (prepared.sentences.map String.toList)) := by
  have htexts : (inOrder snapshots).map (fun s => s.normalizedText.toList) =
      prepared.sentences.map String.toList := by
    rw [← inOrder_texts hstored, List.map_map]
    rfl
  have hne : prepared.sentences.map String.toList ≠ [] := by simpa using h.nonempty
  have hblank : ∀ text ∈ prepared.sentences.map String.toList, text ≠ [] := by
    intro text htext
    obtain ⟨s, hs, rfl⟩ := List.mem_map.mp htext
    simpa using h.plain.nonblank s hs
  have hline : ∀ text ∈ dropFirstMark (prepared.sentences.map String.toList),
      ∀ c ∈ text, isLineBoundary c = false := by
    have hall : ∀ text ∈ prepared.sentences.map String.toList,
        ∀ c ∈ text, isLineBoundary c = false := by
      intro text htext
      obtain ⟨s, hs, rfl⟩ := List.mem_map.mp htext
      exact normalized_line (h.plain.normalized s hs)
    cases htail : prepared.sentences.map String.toList with
    | nil => exact absurd htail hne
    | cons first rest =>
      rw [htail] at hall
      intro text htext c hc
      obtain rfl | htext := List.mem_cons.mp htext
      · exact hall first List.mem_cons_self c (mem_dropMark hc)
      · exact hall text (List.mem_cons_of_mem _ htext) c hc
  show (decodeUtf8Sig (encodeUtf8 (exportTxt (inOrder snapshots)))).map _ = _
  rw [exportTxt, htexts, join_lines hne, decodeUtf8Sig_encodeUtf8, dropMark_joined hblank,
    Option.map_some, Lines.splitlines_joined (by decide) (by decide) hline]
  simp [Lines.ending]

/-- The first sentence starts with a byte order mark. -/
def StartsWithMark (sentences : List String) : Prop :=
  ∃ first rest tail, sentences = first :: rest ∧ first.toList = byteOrderMark :: tail

theorem dropFirstMark_same {sentences : List String} (h : ¬ StartsWithMark sentences) :
    (dropFirstMark (sentences.map String.toList)).map String.ofList = sentences := by
  cases sentences with
  | nil => rfl
  | cons first rest =>
    have hsame : dropMark first.toList = first.toList := by
      cases hchars : first.toList with
      | nil => rfl
      | cons c tail =>
        refine if_neg fun hc => h ⟨first, rest, tail, rfl, ?_⟩
        rw [hchars, hc]
    simp [dropFirstMark, hsame, Function.comp_def]

/-- A normalized sentence is in normal form C. -/
theorem normalized_nfc (hnfc : Nfc nfc) {text : String} (h : normalizeSentence nfc text = text) :
    nfc text.toList = text.toList := by
  have hchars : Words.join ' ' (Words.words isSpace (nfc (newlines text.toList))) = text.toList := by
    rw [← String.toList_ofList (l := Words.join ' ' _)]
    exact congrArg String.toList h
  have hnil : nfc [] = [] := hnfc.part (hnfc.idem (newlines text.toList)) List.nil_infix
  rw [← hchars]
  refine hnfc.join (fun w hw => ?_) hnil
  exact hnfc.part (hnfc.idem _) (Words.mem_words hw).2

/-- Without its first character a normalized sentence becomes no longer by normalization. -/
theorem normalized_tail (hnfc : Nfc nfc) {text : String} {c : Char} {tail : List Char}
    (h : normalizeSentence nfc text = text) (htail : text.toList = c :: tail) :
    (normalizeSentence nfc (String.ofList tail)).length < text.length := by
  have hfixed : nfc tail = tail := by
    refine hnfc.part (normalized_nfc hnfc h) ?_
    rw [htail]
    exact List.infix_cons (List.infix_refl tail)
  have hreturn : '\r' ∉ tail := by
    intro hmem
    have hin : '\r' ∈ text.toList := htail ▸ List.mem_cons_of_mem _ hmem
    exact absurd (normalized_blank h _ hin (by decide)) (by decide)
  have hlength : text.length = tail.length + 1 := by
    rw [← String.length_toList, htail, List.length_cons]
  rw [normalizeSentence, String.length_ofList, String.toList_ofList, newlines_of_not_mem hreturn,
    hfixed, hlength]
  exact Nat.lt_succ_of_le (Words.length_join_words_le ' ')

/-- A sentence that lost its mark is not prepared as it was. -/
theorem mark_lost (hnfc : Nfc nfc) {limits : CorpusImportLimits} {first : String}
    {rest : List String} {tail : List Char} (hplain : Plain nfc (first :: rest))
    (htail : first.toList = byteOrderMark :: tail) :
    prepareSentences nfc limits [] (String.ofList tail :: rest) ≠ .ok (first :: rest) := by
  intro h
  have hshorter := normalized_tail hnfc (hplain.normalized first List.mem_cons_self) htail
  obtain ⟨-, h⟩ | ⟨-, -, h⟩ := prepareSentences_cons h
  · -- dropped: a sentence is missing
    obtain ⟨kept, hkept, hlen⟩ := prepareSentences_extends h
    have hcount := congrArg List.length hkept
    rw [List.nil_append, List.length_cons] at hcount
    omega
  · obtain ⟨kept, hkept, -⟩ := prepareSentences_extends h
    simp only [List.nil_append, List.singleton_append, List.cons.injEq] at hkept
    rw [hkept.1] at hshorter
    exact Nat.lt_irrefl _ hshorter

/-- An upload of a text file: its name and media type are those of one. -/
structure CorpusUpload.IsTxt (upload : CorpusUpload) : Prop where
  format : upload.fileFormat = .txt
  file : acceptsFile upload.filename.toList upload.contentType.toList .txt = true
  column : upload.textColumn = none

/-- An uploaded text is prepared line by line. -/
theorem importCorpus_txt {maxUploadBytes : Nat} {limits : CorpusImportLimits}
    {upload : CorpusUpload} {operation : String} {lines : List (List Char)} {code : String}
    (htxt : upload.IsTxt) (hne : upload.content ≠ [])
    (hlines : (decodeUtf8Sig upload.content).map (Lines.splitlines isLineBoundary false) =
      some lines)
    (hlanguage : normalizeLanguage upload.language = some code) (again : PreparedCorpus) :
    importCorpus nfc sha256 loads maxUploadBytes limits upload operation = .ok again ↔
      upload.content.length ≤ maxUploadBytes ∧
        prepareCorpus nfc sha256 limits ⟨code, lines.map String.ofList⟩ = .ok again := by
  obtain ⟨decoded, hdecoded, hsplit⟩ := Option.map_eq_some_iff.mp hlines
  have hparse : parseCorpusUpload loads upload operation = .ok lines := by
    unfold parseCorpusUpload
    rw [htxt.format, htxt.column, hdecoded, if_pos htxt.file, ← hsplit]
  unfold importCorpus
  by_cases hsize : upload.content.length ≤ maxUploadBytes
  · rw [if_neg (by simp [hne, hsize]), hparse]
    simp only [bind, Except.bind, corpusImportRequest, hlanguage, Option.map_some, hsize, true_and]
    cases prepareCorpus nfc sha256 limits ⟨code, lines.map String.ofList⟩ <;> simp
  · rw [if_pos (.inr (Nat.lt_of_not_le hsize))]
    simp [hsize]

/-- **A version comes back from its text export** exactly when the file is small
enough to be uploaded and the first sentence does not start with the character
that marks a file as UTF-8. -/
theorem txt_export_imports (hnfc : Nfc nfc) {language : String} {sentences : List String}
    {request : CorpusImportRequest} {limits : CorpusImportLimits} {prepared : PreparedCorpus}
    (hrequest : corpusImportRequest language sentences = some request)
    (hprepared : prepareCorpus nfc sha256 limits request = .ok prepared)
    {snapshots : List SentenceSnapshot} (hstored : prepared.Stores snapshots)
    (version : ExportedVersion) {upload : CorpusUpload} (htxt : upload.IsTxt)
    (hlanguage : upload.language = prepared.language)
    (hcontent : upload.content = (buildExport version snapshots .txt).content)
    (maxUploadBytes : Nat) (operation : String) :
    (∃ again, importCorpus nfc sha256 loads maxUploadBytes limits upload operation = .ok again ∧
        again.sentences = prepared.sentences ∧ again.contentSha256 = prepared.contentSha256) ↔
      upload.content.length ≤ maxUploadBytes ∧ ¬ StartsWithMark prepared.sentences := by
  have hwell := prepareCorpus_wellFormed hnfc hprepared
  obtain ⟨-, hprepared_language, -, -⟩ := prepareCorpus_ok hprepared
  have hcode : normalizeLanguage upload.language = some prepared.language := by
    obtain ⟨code, hcode, hcode'⟩ := Option.map_eq_some_iff.mp hrequest
    rw [hlanguage, hprepared_language, ← hcode']
    exact normalizeLanguage_idem hcode
  have hlines : (decodeUtf8Sig upload.content).map (Lines.splitlines isLineBoundary false) =
      some (dropFirstMark (prepared.sentences.map String.toList)) := by
    rw [hcontent]
    exact splitlines_exportTxt hwell hstored
  have hne : upload.content ≠ [] := by
    rw [hcontent]
    exact encodeUtf8_ne_nil (List.append_ne_nil_of_right_ne_nil _ (List.cons_ne_nil _ _))
  have himport := @importCorpus_txt nfc sha256 loads maxUploadBytes limits upload operation _ _
    htxt hne hlines hcode
  constructor
  · rintro ⟨again, hagain, hsame, -⟩
    obtain ⟨hsize, hagain⟩ := (himport again).mp hagain
    refine ⟨hsize, ?_⟩
    rintro ⟨first, rest, tail, hfirst, htail⟩
    -- without its mark the first sentence is another one
    obtain ⟨hread, -, -, -⟩ := prepareCorpus_ok hagain
    have hplain := hwell.plain
    rw [hsame, hfirst] at hread
    rw [hfirst] at hplain
    have hlost : prepareSentences nfc limits [] _ ≠ _ := mark_lost hnfc hplain htail
    refine hlost ?_
    rw [← hread]
    simp [dropFirstMark, htail, dropMark, Function.comp_def]
  · rintro ⟨hsize, hmark⟩
    refine ⟨prepared, (himport prepared).mpr ⟨hsize, ?_⟩, rfl, rfl⟩
    rw [dropFirstMark_same hmark]
    exact prepareCorpus_again hnfc hprepared

/-- The digests of the corpora below. -/
def fileSha256 (text : List Char) : Sha256 :=
  if text = "\x7b\"language\":\"en\",\"sentences\":[\"\uFEFFone\"]\x7d".toList then
    0x1a0bbc8e2ad4690898c5fa6e1ba447ef16b0a6c450c7512b4878bb763fb0b982
  else if text = "\x7b\"language\":\"en\",\"sentences\":[\"one\"]\x7d".toList then
    0x85de6972cda559c28898bfa72464c5349e215dc31ed61960cc9c15d19a7dbd90
  else if text = "\x7b\"language\":\"en\",\"sentences\":[\"=1\",\"a, b\"]\x7d".toList then
    0x645e08dc9b62b2249d63981f14a0ab0eeb81c7966a355b4dcb54488db54a20bf
  else if text = "\x7b\"language\":\"en\",\"sentences\":[\"=x\",\"'=x\"]\x7d".toList then
    0x1dacd841a4b305d9d9a2f182a0383de7984f5f72634cafbe54d5ed33c67011d5
  else Deployment.sample.sha256 text

/-- A version of one corpus, exported under its name. -/
def sampleVersion : ExportedVersion :=
  ⟨"00000000-0000-4000-8000-000000000010", "corpus", "00000000-0000-4000-8000-000000000011", 1,
    "en", ""⟩

def snapshotsOf (texts : List String) : List SentenceSnapshot :=
  texts.zipIdx.map fun e => ⟨e.2, e.1, e.1⟩

/-- The text export of the version with these sentences, uploaded. -/
def uploadedTxt (texts : List String) : CorpusUpload :=
  ⟨"en", "corpus-v1.txt", "text/plain; charset=utf-8", .txt,
    (buildExport sampleVersion (snapshotsOf texts) .txt).content, none⟩

def preparedSample (texts : List String) : Except Error PreparedCorpus :=
  prepareCorpus Deployment.sample.nfc fileSha256 ⟨100, 100⟩ ⟨"en", texts⟩

/-- The corpus that texts are prepared to. -/
structure PreparedTexts (texts : List String) where
  corpus : PreparedCorpus
  prepared : preparedSample texts = .ok corpus

def preparedPlain : PreparedTexts ["one  two", "three"] where
  corpus := ⟨"en", ["one two", "three"],
    0x1f917a635cd7b131fe5848293931c37ff5a25acce373f6a1669c4fbe2c9e521e⟩
  prepared := by decide +kernel

theorem txt_export_imports_sample :
    ∃ again, importCorpus Deployment.sample.nfc fileSha256 (fun _ => none) 1000 ⟨100, 100⟩
        (uploadedTxt ["one two", "three"]) "corpus.import" = .ok again ∧
      again.sentences = ["one two", "three"] ∧
      again.contentSha256 = 0x1f917a635cd7b131fe5848293931c37ff5a25acce373f6a1669c4fbe2c9e521e := by
  have hrequest : corpusImportRequest "EN" ["one  two", "three"] =
      some ⟨"en", ["one  two", "three"]⟩ := by decide +kernel
  have hstored : preparedPlain.corpus.Stores (snapshotsOf ["one two", "three"]) := List.Perm.refl _
  refine (txt_export_imports Nfc.ascii hrequest preparedPlain.prepared hstored sampleVersion
    ⟨rfl, by decide +kernel, rfl⟩ rfl rfl 1000 "corpus.import").mpr ⟨by decide +kernel, ?_⟩
  rintro ⟨first, rest, tail, hfirst, htail⟩
  cases hfirst
  have hmark : some 'o' = some byteOrderMark := congrArg List.head? htail
  exact absurd hmark (by decide)

/-- A mark at the start of the first sentence is taken for the file's. -/
theorem txt_export_loses_mark :
    (preparedSample ["\uFEFFone"]).toOption.map PreparedCorpus.sentences = some ["\uFEFFone"] ∧
    (importCorpus Deployment.sample.nfc fileSha256 (fun _ => none) 1000 ⟨100, 100⟩
        (uploadedTxt ["\uFEFFone"]) "corpus.import").toOption.map
      (fun again => (again.sentences, again.contentSha256)) =
      some (["one"], 0x85de6972cda559c28898bfa72464c5349e215dc31ed61960cc9c15d19a7dbd90) := by
  decide +kernel

/-! ## CSV exports -/

theorem isFormula_cons {c : Char} {value : List Char} :
    isFormula (c :: value) = csvFormulaPrefixes.contains c := rfl

/-- A neutralized text is no formula. -/
theorem neutralizeCsvFormula_safe (value : List Char) :
    isFormula (neutralizeCsvFormula value) = false := by
  unfold neutralizeCsvFormula
  split
  · rw [isFormula_cons]
    decide
  · next h => exact Bool.eq_false_iff.mpr h

/-- A text that already looks like a neutralized formula. -/
def isGuarded (value : List Char) : Bool :=
  match value with
  | '\'' :: rest => isFormula rest
  | _ => false

theorem isGuarded_iff {value : List Char} :
    isGuarded value = true ↔ ∃ rest, value = '\'' :: rest ∧ isFormula rest = true := by
  unfold isGuarded
  split
  · next rest => simp
  · next hne =>
    constructor
    · intro h
      cases h
    · rintro ⟨rest, rfl, -⟩
      exact absurd rfl (hne rest)

/-- Taking the apostrophe of a neutralized formula away. -/
def restoreCsvFormula (cell : List Char) : List Char :=
  if isGuarded cell then cell.tail else cell

theorem restore_neutralize_iff {value : List Char} :
    restoreCsvFormula (neutralizeCsvFormula value) = value ↔ isGuarded value = false := by
  unfold neutralizeCsvFormula
  by_cases h : isFormula value = true
  · have hguarded : isGuarded ('\'' :: value) = true := isGuarded_iff.mpr ⟨value, rfl, h⟩
    have hplain : isGuarded value = false := by
      rw [Bool.eq_false_iff]
      intro hg
      obtain ⟨rest, rfl, -⟩ := isGuarded_iff.mp hg
      rw [isFormula_cons] at h
      revert h
      decide
    simp [h, restoreCsvFormula, hguarded, hplain]
  · rw [if_neg h]
    unfold restoreCsvFormula
    split
    · next hg =>
      obtain ⟨rest, rfl, -⟩ := isGuarded_iff.mp hg
      simp [hg]
    · next hg => simpa using hg

/-- Two texts share a cell only when one is the other neutralized. -/
theorem neutralize_eq_iff {a b : List Char} :
    neutralizeCsvFormula a = neutralizeCsvFormula b ↔
      a = b ∨ (isFormula a = true ∧ b = '\'' :: a) ∨ (isFormula b = true ∧ a = '\'' :: b) := by
  have hquote : ∀ value, isFormula ('\'' :: value) = false := fun value => rfl
  unfold neutralizeCsvFormula
  by_cases ha : isFormula a = true <;> by_cases hb : isFormula b = true
  · simp only [ha, hb, if_true, List.cons.injEq, true_and]
    constructor
    · exact .inl
    · rintro (h | h | h)
      · exact h
      · rw [h, hquote] at hb
        cases hb
      · rw [h, hquote] at ha
        cases ha
  · simp only [ha, hb, if_true, if_false, Bool.false_eq_true, true_and, false_and, or_false]
    constructor
    · exact fun h => .inr h.symm
    · rintro (h | h)
      · exact absurd (h ▸ ha) hb
      · exact h.symm
  · simp only [ha, hb, if_true, if_false, Bool.false_eq_true, true_and, false_and, false_or]
    constructor
    · exact .inr
    · rintro (h | h)
      · exact absurd (h ▸ hb) ha
      · exact h
  · simp [ha, hb]

/-- The bounds the settings put on the limits of an import. -/
structure CorpusImportLimits.FromSettings (limits : CorpusImportLimits) : Prop where
  sentences : limits.maxSentences ≤ 250000
  characters : limits.maxSentenceCharacters ≤ 100000

theorem csvRow_fits {sentence : SentenceSnapshot} (hordinal : sentence.ordinal < 250000)
    (hlength : sentence.normalizedText.length ≤ 100000)
    (hnormal : normalizeSentence nfc sentence.normalizedText = sentence.normalizedText) :
    ∀ field ∈ csvRow sentence, Csv.Fits excel field := by
  intro field hfield
  simp only [csvRow, List.mem_cons, List.not_mem_nil, or_false] at hfield
  obtain rfl | rfl := hfield
  · refine ⟨fun c hc => ?_, ?_⟩
    · have hdigit := Nat.isDigit_of_mem_toDigits (by decide) (by decide) hc
      by_contra hbreak
      simp only [Csv.isBreak, Bool.not_eq_false, Bool.or_eq_true, beq_iff_eq] at hbreak
      rcases hbreak with rfl | rfl <;> exact absurd hdigit (by decide)
    · have hsix : (Nat.toDigits 10 sentence.ordinal).length ≤ 6 :=
        (Nat.length_toDigits_le_iff (by decide) (by decide)).mpr (by omega)
      exact hsix.trans (by decide)
  · have hline : ∀ c ∈ sentence.normalizedText.toList, Csv.isBreak c = false := by
      intro c hc
      by_contra hbreak
      have hboundary := isLineBoundary_of_isBreak (Bool.not_eq_false _ ▸ hbreak)
      rw [normalized_line hnormal c hc] at hboundary
      cases hboundary
    have hchars : sentence.normalizedText.toList.length ≤ 100000 := by
      rw [String.length_toList]
      exact hlength
    unfold neutralizeCsvFormula
    split
    · refine ⟨fun c hc => ?_, ?_⟩
      · obtain rfl | hc := List.mem_cons.mp hc
        · decide
        · exact hline c hc
      · show sentence.normalizedText.toList.length + 1 ≤ 131072
        omega
    · exact ⟨hline, hchars.trans (by decide)⟩

theorem rowText_csvRow (sentence : SentenceSnapshot) :
    rowText csvHeader "text".toList (csvRow sentence) =
      some (neutralizeCsvFormula sentence.normalizedText.toList) := by
  have hindex : csvHeader.idxOf "text".toList = 1 := by decide
  rw [rowText, hindex]
  rfl

theorem mapM_rowText (ordered : List SentenceSnapshot) :
    ((ordered.map csvRow).filter fun row => !row.isEmpty).mapM (rowText csvHeader "text".toList) =
      some (ordered.map fun s => neutralizeCsvFormula s.normalizedText.toList) := by
  induction ordered with
  | nil => rfl
  | cons sentence ordered ih =>
    have hkept : ((sentence :: ordered).map csvRow).filter (fun row => !row.isEmpty) =
        csvRow sentence :: (ordered.map csvRow).filter fun row => !row.isEmpty := by
      simp [csvRow]
    rw [hkept, List.mapM_cons, rowText_csvRow, ih]
    rfl

theorem PreparedCorpus.Stores.ordinal_lt {prepared : PreparedCorpus}
    {snapshots : List SentenceSnapshot} (h : prepared.Stores snapshots) :
    ∀ s ∈ inOrder snapshots, s.ordinal < prepared.sentences.length := by
  intro s hs
  have hmem := List.mem_map_of_mem (f := fun s => (s.normalizedText, s.ordinal)) hs
  rw [inOrder_stores h] at hmem
  exact (List.getElem?_eq_some_iff.mp (List.mem_zipIdx_iff_getElem?.mp hmem)).1

/-- The cells of an export are read back as they were written. -/
theorem parseCsv_exportCsv {limits : CorpusImportLimits} (hlimits : limits.FromSettings)
    {prepared : PreparedCorpus} (hwell : prepared.WellFormed nfc sha256)
    (hcount : prepared.sentences.length ≤ limits.maxSentences)
    (hshort : ∀ s ∈ prepared.sentences, s.length ≤ limits.maxSentenceCharacters)
    {snapshots : List SentenceSnapshot} (hstored : prepared.Stores snapshots) (operation : String) :
    parseCsv (exportCsv (inOrder snapshots)) "text".toList operation =
      .ok (prepared.sentences.map fun s => neutralizeCsvFormula s.toList) := by
  have hrows : ∀ row ∈ csvHeader :: (inOrder snapshots).map csvRow,
      row ≠ [] ∧ ∀ field ∈ row, Csv.Fits excel field := by
    intro row hrow
    obtain rfl | hrow := List.mem_cons.mp hrow
    · refine ⟨List.cons_ne_nil _ _, fun field hfield => ?_⟩
      simp only [csvHeader, List.mem_cons, List.not_mem_nil, or_false] at hfield
      rcases hfield with rfl | rfl <;> exact ⟨by simp [Csv.isBreak], by simp [excel]⟩
    · obtain ⟨s, hs, rfl⟩ := List.mem_map.mp hrow
      have hmem : s.normalizedText ∈ prepared.sentences := by
        rw [← inOrder_texts hstored]
        exact List.mem_map_of_mem hs
      have hordinal := hstored.ordinal_lt s hs
      refine ⟨List.cons_ne_nil _ _, csvRow_fits ?_ ?_ (hwell.plain.normalized _ hmem)⟩
      · exact Nat.lt_of_lt_of_le hordinal (hcount.trans hlimits.sentences)
      · exact (hshort _ hmem).trans hlimits.characters
  have hcells : (inOrder snapshots).map (fun s => neutralizeCsvFormula s.normalizedText.toList) =
      prepared.sentences.map fun s => neutralizeCsvFormula s.toList := by
    rw [← inOrder_texts hstored, List.map_map]
    rfl
  have hheaders : acceptsHeaders csvHeader "text".toList = true := by decide
  unfold parseCsv exportCsv
  rw [Csv.readRows_write hrows]
  dsimp only
  rw [if_pos hheaders, mapM_rowText, hcells]

theorem dropMark_exportCsv (ordered : List SentenceSnapshot) :
    dropMark (exportCsv ordered) = exportCsv ordered := by
  have hheader : Csv.writeRow excel csvHeader = 'o' :: "rdinal,text\n".toList := by decide
  have hstart : ('o' : Char) ≠ byteOrderMark := by decide
  have hexport : exportCsv ordered =
      'o' :: ("rdinal,text\n".toList ++ Csv.write excel (ordered.map csvRow)) := by
    show Csv.writeRow excel csvHeader ++ Csv.write excel (ordered.map csvRow) = _
    rw [hheader, List.cons_append]
  rw [hexport, dropMark, if_neg hstart]

/-- **CSV exports are safe, and faithful but for guarded texts.** No cell read
back is a formula. Taking the apostrophes away again gives the sentences exactly
when none of them looks like a neutralized formula, and two sentences share a
cell only when one is the other neutralized. -/
theorem csv_export_cells (hnfc : Nfc nfc) {request : CorpusImportRequest}
    {limits : CorpusImportLimits} (hlimits : limits.FromSettings) {prepared : PreparedCorpus}
    (hprepared : prepareCorpus nfc sha256 limits request = .ok prepared)
    {snapshots : List SentenceSnapshot} (hstored : prepared.Stores snapshots)
    (version : ExportedVersion) (operation : String) :
    ∃ decoded cells,
      decodeUtf8Sig (buildExport version snapshots .csv).content = some decoded ∧
      parseCsv decoded "text".toList operation = .ok cells ∧
      (∀ cell ∈ cells, isFormula cell = false) ∧
      (∀ (i j : Nat) (a b : String), prepared.sentences[i]? = some a → prepared.sentences[j]? = some b →
        (cells[i]? = cells[j]? ↔ a = b ∨ (isFormula a.toList = true ∧ b.toList = '\'' :: a.toList) ∨
          (isFormula b.toList = true ∧ a.toList = '\'' :: b.toList))) ∧
      (cells.map restoreCsvFormula = prepared.sentences.map String.toList ↔
        ∀ s ∈ prepared.sentences, isGuarded s.toList = false) := by
  have hwell := prepareCorpus_wellFormed hnfc hprepared
  obtain ⟨hs, -, -, -⟩ := prepareCorpus_ok hprepared
  have hshort := prepareSentences_short (fun _ h => absurd h List.not_mem_nil) hs
  refine ⟨_, prepared.sentences.map fun s => neutralizeCsvFormula s.toList,
    decodeUtf8Sig_encodeUtf8 _, ?_, ?_, ?_, ?_⟩
  · rw [dropMark_exportCsv]
    exact parseCsv_exportCsv hlimits hwell (prepareCorpus_count hprepared) hshort hstored operation
  · intro cell hcell
    obtain ⟨s, -, rfl⟩ := List.mem_map.mp hcell
    exact neutralizeCsvFormula_safe s.toList
  · intro i j a b ha hb
    rw [List.getElem?_map, List.getElem?_map, ha, hb, Option.map_some, Option.map_some,
      Option.some.injEq, neutralize_eq_iff, String.toList_inj]
  · rw [List.map_map, List.map_inj_left]
    exact forall₂_congr fun s _ => restore_neutralize_iff

def preparedCells : PreparedTexts ["=1", "a,  b"] where
  corpus := ⟨"en", ["=1", "a, b"],
    0x645e08dc9b62b2249d63981f14a0ab0eeb81c7966a355b4dcb54488db54a20bf⟩
  prepared := by decide +kernel

theorem csv_export_cells_sample :
    ∃ decoded cells,
      decodeUtf8Sig (buildExport sampleVersion (snapshotsOf ["=1", "a, b"]) .csv).content =
        some decoded ∧
      parseCsv decoded "text".toList "corpus.import" = .ok cells ∧
      (∀ cell ∈ cells, isFormula cell = false) ∧
      cells.map restoreCsvFormula = ["=1", "a, b"].map String.toList := by
  have hstored : preparedCells.corpus.Stores (snapshotsOf ["=1", "a, b"]) := List.Perm.refl _
  obtain ⟨decoded, cells, hdecoded, hparsed, hsafe, -, hrestored⟩ :=
    csv_export_cells Nfc.ascii ⟨by decide, by decide⟩ preparedCells.prepared hstored sampleVersion
      "corpus.import"
  refine ⟨decoded, cells, hdecoded, hparsed, hsafe, hrestored.mpr ?_⟩
  decide

/-- Two sentences with one cell. -/
theorem csv_export_merges :
    (preparedSample ["=x", "'=x"]).toOption.map PreparedCorpus.sentences = some ["=x", "'=x"] ∧
    ((decodeUtf8Sig (buildExport sampleVersion (snapshotsOf ["=x", "'=x"]) .csv).content).map
      fun decoded => parseCsv decoded "text".toList "corpus.import") =
      some (.ok ["'=x".toList, "'=x".toList]) := by
  decide +kernel

end CorpusKit
