import CorpusKit.Properties.GenerationProgress
import CorpusKit.Properties.RunSpecs
import CorpusKit.Workflows.ProcessMessages

/-! # Messages of the child process are checked

Whatever bytes a child sends, the parent refuses them or takes a summary without
authority and credentials or a valid progress message. The one exception is a text
that nests deeper than the interpreter recurses: the reader gives up with an error
the parent does not expect. -/

namespace CorpusKit.ProcessMessages

open Json.Reader Documents SpecIntegrity
open RepositoryGeneration (maxProcessProgressBytes natOrNull coverageOrNull byteLength)

/-! ## Summaries -/

section Authority

variable {casefold : List Char → List Char}

/-- No key carries authority. -/
def WithoutAuthority (casefold : List Char → List Char) (ks : List (List Char)) : Prop :=
  ∀ key ∈ ks, casefold key ∉ forbiddenAuthorityKeys

theorem withoutAuthority_append {ks ls : List (List Char)} :
    WithoutAuthority casefold (ks ++ ls) ↔
      WithoutAuthority casefold ks ∧ WithoutAuthority casefold ls := List.forall_mem_append

theorem withoutAuthority_cons {key : List Char} {ks : List (List Char)} :
    WithoutAuthority casefold (key :: ks) ↔
      casefold key ∉ forbiddenAuthorityKeys ∧ WithoutAuthority casefold ks :=
  List.forall_mem_cons

mutual

theorem hasAuthority_eq_false (v : Json.Value) :
    hasAuthority casefold v = false ↔ WithoutAuthority casefold (keys v) := by
  match v with
  | .null | .bool b | .int n | .float x | .str s =>
    simp [hasAuthority, keys, WithoutAuthority]
  | .arr items => exact hasAuthorityItems_eq_false items
  | .obj fields => exact hasAuthorityFields_eq_false fields

theorem hasAuthorityItems_eq_false (items : List Json.Value) :
    hasAuthorityItems casefold items = false ↔ WithoutAuthority casefold (keysItems items) := by
  match items with
  | [] => simp [hasAuthorityItems, keysItems, WithoutAuthority]
  | item :: items =>
    rw [hasAuthorityItems, Bool.or_eq_false_iff, hasAuthority_eq_false item,
      hasAuthorityItems_eq_false items, keysItems, withoutAuthority_append]

theorem hasAuthorityFields_eq_false (fields : List (List Char × Json.Value)) :
    hasAuthorityFields casefold fields = false ↔
      WithoutAuthority casefold (keysFields fields) := by
  match fields with
  | [] => simp [hasAuthorityFields, keysFields, WithoutAuthority]
  | (key, value) :: fields =>
    rw [hasAuthorityFields, Bool.or_eq_false_iff, Bool.or_eq_false_iff, hasAuthority_eq_false value,
      hasAuthorityFields_eq_false fields, keysFields, withoutAuthority_append,
      withoutAuthority_cons]
    simp

end

end Authority

theorem normalizeResultSummary_eq_ok {summary : Dictionary} {normalized : Document} :
    normalizeResultSummary summary = .ok normalized ↔
      ∃ encoded, Documents.normalize summaryLimits summary = .ok (normalized, encoded) := by
  rw [normalizeResultSummary, bind_eq_ok]
  constructor
  · rintro ⟨⟨document, encoded⟩, hnormalized, hresult⟩
    cases hresult
    exact ⟨encoded, hnormalized⟩
  · rintro ⟨encoded, hnormalized⟩
    exact ⟨(normalized, encoded), hnormalized, rfl⟩

/-- A summary that normalization returns: small, without credentials, and the same
once more. -/
structure Normalized (summary : Document) : Prop where
  harmless : Harmless (keys summary.value)
  size : size summary.value ≤ summaryLimits.maxNodes
  height : height summary.value ≤ summaryLimits.maxDepth
  bytes : (utf8 (Json.dumps summary.value)).size ≤ summaryLimits.maxBytes
  again : normalizeResultSummary (dictionaryOf summary) = .ok summary

theorem normalizeResultSummary_normalized {summary : Dictionary} {normalized : Document}
    (h : normalizeResultSummary summary = .ok normalized) : Normalized normalized := by
  obtain ⟨encoded, hencoded⟩ := normalizeResultSummary_eq_ok.mp h
  obtain ⟨⟨hkeys, hsize, hheight, -, hbytes⟩, hloaded, -⟩ := normalize_eq_ok.mp hencoded
  have hvalue : normalized.value = (specValue summary).sorted := by rw [hloaded]; rfl
  have hshape := sameShape_sorted (specValue summary)
  have hsorted : normalized.value.sorted = normalized.value := by rw [hvalue, Json.sorted_sorted]
  refine ⟨?_, ?_, ?_, ?_, ?_⟩
  · rw [hvalue]
    exact fun key hkey => hkeys key ((hshape.keys key).mp hkey)
  · rw [hvalue, hshape.size]
    exact hsize
  · rw [hvalue, hshape.height]
    exact hheight
  · rw [Json.dumps, hsorted, hvalue]
    exact hbytes
  · have hcongr : (specValue summary).sorted = (specValue (dictionaryOf normalized)).sorted :=
      (hsorted.trans hvalue).symm
    exact normalizeResultSummary_eq_ok.mpr ⟨encoded, normalize_congr hcongr hencoded⟩

/-! ## What the parent takes -/

section Messages

variable (casefold : List Char → List Char) (pydantic : Pydantic) (floats : Floats) (limit : Nat)

/-- The parent refuses the response, or takes a checked message from it. -/
def Checked (response : List UInt8) : Except Refusal Message → Prop
  | .error (.execution _ _) => True
  | .error .recursion => False
  | .ok (.result summary) => WithoutAuthority casefold (keys summary.value) ∧ Normalized summary
  | .ok (.progress progress) => progress.Valid ∧ ∃ fields progressFields,
      loadsBytes floats.parse limit response = .ok (.obj fields) ∧
      get fields "progress" = some (.obj progressFields) ∧
      normalizeProgress pydantic progressFields = some progress

theorem normalizeProgress_valid {pydantic : Pydantic} {fields : List (Str × Decoded)}
    {progress : DurableRunProgress}
    (h : normalizeProgress pydantic fields = some progress) :
    progress.Valid := by
  unfold normalizeProgress at h
  simp only [Option.bind_eq_bind, Option.bind_eq_some_iff] at h
  obtain ⟨-, -, -, -, sequence, -, natural, -, phase, -, completed, -, total, -, coverage, -,
    acceptedCount, -, h⟩ := h
  split at h
  · rename_i hvalid
    cases h
    exact hvalid
  · cases h

variable {casefold pydantic floats limit}

theorem resultMessage_checked {response : List UInt8} (summary : Decoded) (h : summary.Dict) :
    Checked casefold pydantic floats limit response (resultMessage casefold summary h) := by
  unfold resultMessage
  split
  · trivial
  · split
    · trivial
    · rename_i dictionary _ normalized hnormalized
      split
      · trivial
      · rename_i hauthority
        exact ⟨(hasAuthority_eq_false _).mp (Bool.eq_false_iff.mpr hauthority),
          normalizeResultSummary_normalized hnormalized⟩

theorem progressMessage_checked {response : List UInt8} {fields : List (Str × Decoded)}
    (hloaded : loadsBytes floats.parse limit response = .ok (.obj fields)) (size : Nat) :
    Checked casefold pydantic floats limit response
      (progressMessage pydantic size (get fields "progress")) := by
  unfold progressMessage
  split
  · trivial
  · split
    · rename_i progressFields hprogress
      split
      · rename_i progress hnormalized
        exact ⟨normalizeProgress_valid hnormalized, fields, progressFields, hloaded, hprogress,
          hnormalized⟩
      · trivial
    · trivial

theorem errorMessage_ne (code retryable : Option Decoded) :
    errorMessage code retryable ≠ .recursion := by
  unfold errorMessage
  split
  · exact Refusal.noConfusion
  · exact Refusal.noConfusion

theorem readMessage_checked {response : List UInt8} {decoded : Decoded}
    (hloaded : loadsBytes floats.parse limit response = .ok decoded) (h : decoded.Dict) :
    Checked casefold pydantic floats limit response
      (readMessage casefold pydantic response.length decoded h) := by
  unfold readMessage
  split
  · dsimp only
    split
    · exact progressMessage_checked hloaded _
    · split
      · cases herror : errorMessage _ _ with
        | execution code retryable => trivial
        | recursion => exact absurd herror (errorMessage_ne _ _)
      · split
        · split
          · exact resultMessage_checked _ _
          · trivial
        · trivial
  · trivial

/-- **Responses are checked** exactly where the reader does not run out of stack. -/
theorem decodeProcessMessage_checked (response : List UInt8) :
    Checked casefold pydantic floats limit response
        (decodeProcessMessage casefold pydantic floats limit response) ↔
      loadsBytes floats.parse limit response ≠ .error .recursion := by
  unfold decodeProcessMessage
  split
  · rename_i decoded hloaded
    refine ⟨fun _ h => ?_, fun _ => readMessage_checked hloaded _⟩
    rw [hloaded] at h
    cases h
  · rename_i hloaded
    refine ⟨fun _ h => ?_, fun _ => trivial⟩
    rw [hloaded] at h
    cases h
  · rename_i hloaded
    exact ⟨fun h => h.elim, fun h => absurd hloaded h⟩

/-! ## Progress messages read back -/

variable {repr : ℚ → Json.FloatText} {progress : DurableRunProgress}

/-- The dictionary of a progress message. -/
def progressItems (repr : ℚ → Json.FloatText) (progress : DurableRunProgress) :
    List (List Char × Json.Value) :=
  [("accepted_count".toList, natOrNull progress.acceptedCount),
    ("completed".toList, natOrNull progress.completed),
    ("coverage".toList, coverageOrNull repr progress.coverage),
    ("phase".toList, .str progress.phase.value.toList),
    ("schema_version".toList, .int 1),
    ("sequence".toList, .int progress.sequence),
    ("total".toList, natOrNull progress.total)]

def messageItems (repr : ℚ → Json.FloatText) (progress : DurableRunProgress) :
    List (List Char × Json.Value) :=
  [("progress".toList, .obj (progressItems repr progress)),
    ("status".toList, .str "progress".toList)]

theorem encodeProgress_eq : RepositoryGeneration.encodeProgress repr progress =
    Json.encode (.obj (messageItems repr progress)) := rfl

theorem get_progress : get (decodedFields (messageItems repr progress)) "progress" =
    some (.obj (decodedFields (progressItems repr progress))) := rfl

theorem isText_status :
    isText (get (decodedFields (messageItems repr progress)) "status") "progress" = true := rfl

theorem phaseOf_value (phase : RunProgressPhase) :
    phaseOf (decoded (.str phase.value.toList)) = some phase := by
  have hchars := Str.chars?_ofChars phase.value.toList
  show ((Str.ofChars phase.value.toList).chars?.bind fun chars =>
    RunProgressPhase.ofValue (String.ofList chars)) = some phase
  rw [hchars, Option.bind_some, String.ofList_toList]
  cases phase <;> rfl

theorem natural_natCast (n : Nat) : natural n = some n := by
  rw [natural, if_pos (Int.natCast_nonneg n), Int.toNat_natCast]

theorem optional_count (x : Option Nat) :
    optional (fun value => (pydantic.int value).bind natural)
      (some (decoded (natOrNull x))) = some x := by
  cases x with
  | none => rfl
  | some n =>
    show ((pydantic.int (.int n)).bind natural).map some = some (some n)
    rw [pydantic.int_int, Option.bind_some, natural_natCast]
    rfl

theorem optional_coverage {coverage : Option Number} (hunit : ∀ x ∈ coverage, x.InUnit)
    (hprints : ∀ q, coverage = some (some q) → floats.Prints q) :
    optional pydantic.float (some (decoded (coverageOrNull floats.repr coverage))) =
      some coverage := by
  match coverage with
  | none => rfl
  | some none =>
    obtain ⟨q, hq, -⟩ := hunit none rfl
    cases hq
  | some (some q) =>
    show (pydantic.float (.float (floats.repr q))).map some = some (some (some q))
    rw [pydantic.float_float, (hprints q rfl).value]
    rfl

theorem normalizeProgress_items (hvalid : progress.Valid)
    (hprints : ∀ q, progress.coverage = some (some q) → floats.Prints q) :
    normalizeProgress pydantic (decodedFields (progressItems floats.repr progress)) =
      some progress := by
  have hfields : ((decodedFields (progressItems floats.repr progress)).all fun field =>
      (progressFields.map text).contains field.1) = true := rfl
  have hversion : (get (decodedFields (progressItems floats.repr progress)) "schema_version").all
      pydantic.one = true := pydantic.one_int
  have hsequence : (get (decodedFields (progressItems floats.repr progress)) "sequence").bind
      pydantic.int = some progress.sequence := pydantic.int_int _
  have hphase : (get (decodedFields (progressItems floats.repr progress)) "phase").bind phaseOf =
      some progress.phase := phaseOf_value _
  have hcompleted : get (decodedFields (progressItems floats.repr progress)) "completed" =
      some (decoded (natOrNull progress.completed)) := rfl
  have htotal : get (decodedFields (progressItems floats.repr progress)) "total" =
      some (decoded (natOrNull progress.total)) := rfl
  have hcoverage : get (decodedFields (progressItems floats.repr progress)) "coverage" =
      some (decoded (coverageOrNull floats.repr progress.coverage)) := rfl
  have haccepted : get (decodedFields (progressItems floats.repr progress)) "accepted_count" =
      some (decoded (natOrNull progress.acceptedCount)) := rfl
  unfold normalizeProgress
  simp only [hfields, hversion, hsequence, hphase, hcompleted, htotal, hcoverage, haccepted,
    natural_natCast, optional_count, optional_coverage hvalid.coverage hprints, guard_true,
    Option.bind_eq_bind, Option.bind_some, Option.pure_def]
  exact if_pos hvalid

/-! ### The text of a message -/

theorem readable_natOrNull {parse : List Char → Option Json.FloatText} {x : Option Nat}
    (h : ∀ n ∈ x, n ≤ maxDurableProgressTotal) :
    Readable parse (natOrNull x) := by
  cases x with
  | none => trivial
  | some n =>
    have hn : n < 10 ^ 5 := Nat.lt_of_le_of_lt (h n rfl) (by decide)
    have hlength := (Nat.length_toDigits_le_iff (by omega) (by omega)).mpr hn
    exact Nat.le_trans hlength (by decide)

theorem readable_coverage {coverage : Option Number}
    (hprints : ∀ q, coverage = some (some q) → floats.Prints q) :
    Readable floats.parse (coverageOrNull floats.repr coverage) := by
  match coverage with
  | none => trivial
  | some none => trivial
  | some (some q) => exact (hprints q rfl).reads

theorem readable_message (hvalid : progress.Valid)
    (hprints : ∀ q, progress.coverage = some (some q) → floats.Prints q) :
    Readable floats.parse (.obj (messageItems floats.repr progress)) := by
  have hsequence : Readable floats.parse (.int progress.sequence) :=
    readable_natOrNull (x := some progress.sequence) fun n hn => by
      cases hn
      exact Nat.le_of_lt (Nat.lt_trans hvalid.sequence (by decide))
  have hversion : Readable floats.parse (.int 1) := by
    show (Nat.toDigits 10 1).length ≤ 4300
    decide
  have hitems : Readable floats.parse (.obj (progressItems floats.repr progress)) := by
    refine ⟨?_, readable_natOrNull hvalid.acceptedCount, readable_natOrNull hvalid.completed,
      readable_coverage hprints, trivial, hversion, hsequence,
      readable_natOrNull fun n hn => (hvalid.total n hn).2, trivial⟩
    show (["accepted_count".toList, "completed".toList, "coverage".toList, "phase".toList,
      "schema_version".toList, "sequence".toList, "total".toList] : List (List Char)).Nodup
    decide
  refine ⟨?_, hitems, trivial, trivial⟩
  show (["progress".toList, "status".toList] : List (List Char)).Nodup
  decide

theorem nesting_natOrNull (x : Option Nat) : nesting (natOrNull x) = 0 := by
  cases x <;> rfl

theorem nesting_coverage (x : Option Number) :
    nesting (coverageOrNull repr x) = 0 := by
  match x with
  | none => rfl
  | some none => rfl
  | some (some q) => rfl

theorem nesting_message : nesting (.obj (messageItems repr progress)) = 2 := by
  simp [messageItems, progressItems, nesting, nestingFields, nesting_natOrNull, nesting_coverage]

def isAsciiChar (c : Char) : Bool := decide (0 < c.toNat ∧ c.toNat < 128)

/-- Characters of ASCII, none of them NUL. -/
def isAscii (chars : List Char) : Bool := chars.all isAsciiChar

theorem isAscii_append (chars chars' : List Char) :
    isAscii (chars ++ chars') = (isAscii chars && isAscii chars') := List.all_append

theorem isAscii_cons (c : Char) (chars : List Char) :
    isAscii (c :: chars) = (isAsciiChar c && isAscii chars) := List.all_cons

theorem isAsciiChar_digit {c : Char} (h : c.isDigit = true) : isAsciiChar c = true := by
  refine decide_eq_true ⟨?_, RepositoryGeneration.isDigit_ascii h⟩
  simp only [Char.isDigit, Bool.and_eq_true, decide_eq_true_eq] at h
  have hlower := h.1
  rw [ge_iff_le, UInt32.le_iff_toNat_le] at hlower
  exact Nat.lt_of_lt_of_le (by decide) hlower

theorem isAscii_nat (n : Nat) : isAscii (Json.encode (.int n)) = true := by
  show isAscii (Nat.toDigits 10 n) = true
  rw [isAscii, List.all_eq_true]
  intro c hc
  exact isAsciiChar_digit (Json.isDigit_toDigits hc)

theorem isAscii_natOrNull (x : Option Nat) :
    isAscii (Json.encode (natOrNull x)) = true := by
  cases x with
  | none => rfl
  | some n => exact isAscii_nat n

theorem isAscii_coverage (x : Option Number) :
    isAscii (Json.encode (coverageOrNull repr x)) = true := by
  match x with
  | none => rfl
  | some none => rfl
  | some (some q) =>
    show isAscii (repr q).chars = true
    rw [isAscii, List.all_eq_true]
    intro c hc
    rcases (repr q).numeric c hc with h | rfl | rfl | rfl | rfl
    · exact isAsciiChar_digit h
    all_goals decide

theorem isAscii_phase (phase : RunProgressPhase) :
    isAscii (Json.encode (.str phase.value.toList)) = true := by
  cases phase <;> decide

theorem isAscii_message : isAscii (Json.encode (.obj (messageItems repr progress))) = true := by
  have hkeys : isAscii (Json.literal "progress".toList) = true ∧
      isAscii (Json.literal "accepted_count".toList) = true ∧
      isAscii (Json.literal "completed".toList) = true ∧
      isAscii (Json.literal "coverage".toList) = true ∧
      isAscii (Json.literal "phase".toList) = true ∧
      isAscii (Json.literal "schema_version".toList) = true ∧
      isAscii (Json.literal "sequence".toList) = true ∧
      isAscii (Json.literal "total".toList) = true ∧
      isAscii (Json.literal "status".toList) = true ∧
      isAscii (Json.encode (.str "progress".toList)) = true ∧
      isAscii (Json.encode (.int 1)) = true := by decide
  have hmarks : isAsciiChar '{' = true ∧ isAsciiChar '}' = true ∧ isAsciiChar ',' = true ∧
      isAsciiChar ':' = true ∧ isAscii [] = true := by decide
  obtain ⟨h1, h2, h3, h4, h5, h6, h7, h8, h9, h10, h11⟩ := hkeys
  obtain ⟨m1, m2, m3, m4, m5⟩ := hmarks
  unfold messageItems progressItems
  rw [Json.encode, Json.encode]
  simp only [Json.encodeFields, isAscii_append, isAscii_cons, h1, h2, h3, h4, h5, h6, h7, h8, h9,
    h10, h11, m1, m2, m3, m4, m5, isAscii_nat, isAscii_natOrNull, isAscii_coverage, isAscii_phase,
    Bool.and_true]

/-! ### Messages -/

/-- The bytes of a message are read as its text. -/
theorem loadsBytes_message {parse : List Char → Option Json.FloatText} :
    loadsBytes parse limit (encodeUtf8 (RepositoryGeneration.encodeProgress repr progress)) =
      loads parse limit (.ofChars (Json.encode (.obj (messageItems repr progress)))) := by
  have hascii : isAscii (Json.encode (.obj (messageItems repr progress))) = true := isAscii_message
  have htext : ∃ rest, Json.encode (.obj (messageItems repr progress)) = '{' :: '"' :: rest := by
    unfold messageItems
    rw [Json.encode]
    exact ⟨_, rfl⟩
  obtain ⟨rest, hrest⟩ := htext
  rw [isAscii, List.all_eq_true, hrest] at hascii
  rw [encodeProgress_eq, hrest]
  exact loadsBytes_ascii fun c hc => of_decide_eq_true (hascii c hc)

theorem loads_message (hlimit : 2 ≤ limit) (hvalid : progress.Valid)
    (hprints : ∀ q, progress.coverage = some (some q) → floats.Prints q) :
    loads floats.parse limit (.ofChars (Json.encode (.obj (messageItems floats.repr progress)))) =
      .ok (.obj (decodedFields (messageItems floats.repr progress))) :=
  loads_encode (readable_message hvalid hprints) (by rw [nesting_message]; exact hlimit)

/-- A message has an object in an object. -/
theorem loads_message_shallow {parse : List Char → Option Json.FloatText} (hlimit : limit < 2) :
    loads parse limit (.ofChars (Json.encode (.obj (messageItems repr progress)))) =
      .error .recursion := by
  have hrun : run parse limit ⟨[], .value⟩
      (.ofChars (Json.encode (.obj (messageItems repr progress)))) = .error .recursion := by
    have htext : ∃ rest, Json.encode (.obj (messageItems repr progress)) =
        '{' :: (Json.literal "progress".toList ++ ':' :: '{' :: rest) := by
      unfold messageItems progressItems
      rw [Json.encode, Json.encode]
      exact ⟨_, rfl⟩
    obtain ⟨rest, hrest⟩ := htext
    rw [hrest, Str.ofChars_cons]
    have hopen : ∀ stack, start limit stack '{' = opened limit stack (.fields []) .firstKey :=
      fun _ => rfl
    by_cases hzero : limit = 0
    · exact run_open_full (hopen []) rfl (by rw [hzero]; exact Nat.lt_irrefl 0) _
    · have hone : ([] : List Frame).length < limit := Nat.pos_of_ne_zero hzero
      rw [run_open (hopen []) rfl hone, Str.ofChars_append, Str.ofChars_cons, Str.ofChars_cons,
        run_key rfl]
      exact run_open_full (hopen _) rfl (by rw [List.length_singleton]; omega) _
  rw [loads, hrun]
  rfl

theorem length_encodeUtf8 (chars : List Char) :
    (encodeUtf8 chars).length = byteLength chars := by
  rw [encodeUtf8, List.length_flatMap, byteLength]
  simp only [String.length_utf8EncodeChar]

theorem oneText_numeric :
    ∀ c ∈ ['1', '.', '0'], c.isDigit ∨ c = '-' ∨ c = '+' ∨ c = '.' ∨ c = 'e' := by
  intro c hc
  simp only [List.mem_cons, List.not_mem_nil, or_false] at hc
  rcases hc with rfl | rfl | rfl <;> decide

theorem oneText_fractional : '.' ∈ ['1', '.', '0'] ∨ 'e' ∈ ['1', '.', '0'] := by decide

theorem oneText_leading :
    ∃ c rest, ['1', '.', '0'] = c :: rest ∧ (c.isDigit ∨ c = '-') :=
  ⟨'1', ['.', '0'], rfl, by decide⟩

/-- `repr(1.0)`. -/
def oneText : Json.FloatText where
  chars := ['1', '.', '0']
  numeric := oneText_numeric
  fractional := oneText_fractional
  leading := oneText_leading

theorem oneText_short : oneText.chars.length ≤ 24 := by decide

/-- A message has the text of one coverage at most. -/
theorem coverage_short {coverage : Option Number}
    (hprints : ∀ q, coverage = some (some q) → floats.Prints q) :
    ∃ short : ℚ → Json.FloatText, (∀ q, (short q).chars.length ≤ 24) ∧
      coverageOrNull floats.repr coverage =
        coverageOrNull short coverage := by
  match coverage with
  | none => exact ⟨fun _ => oneText, fun _ => oneText_short, rfl⟩
  | some none => exact ⟨fun _ => oneText, fun _ => oneText_short, rfl⟩
  | some (some q) => exact ⟨fun _ => floats.repr q, fun _ => (hprints q rfl).short, rfl⟩

/-- A valid message fits the pipe. -/
theorem length_message (hvalid : progress.Valid)
    (hprints : ∀ q, progress.coverage = some (some q) → floats.Prints q) :
    (encodeUtf8 (RepositoryGeneration.encodeProgress floats.repr progress)).length ≤
      maxProcessProgressBytes := by
  obtain ⟨short, hshort, hcoverage⟩ := coverage_short hprints
  have hbytes := RepositoryGeneration.encodeProgress_bytes hshort hvalid
  rw [RepositoryGeneration.encodeProgress, ← hcoverage] at hbytes
  rw [length_encodeUtf8]
  exact hbytes

/-- **A progress message reads back** exactly where the reader does not run out of stack. -/
theorem decodeProcessMessage_progress (hvalid : progress.Valid)
    (hprints : ∀ q, progress.coverage = some (some q) → floats.Prints q) :
    ∃ encoded, encodeProgress floats progress = .ok encoded ∧
      (decodeProcessMessage casefold pydantic floats limit encoded = .ok (.progress progress) ↔
        loadsBytes floats.parse limit encoded ≠ .error .recursion) := by
  have hsize := length_message hvalid hprints
  refine ⟨encodeUtf8 (RepositoryGeneration.encodeProgress floats.repr progress), ?_, ?_⟩
  · rw [encodeProgress]
    exact if_neg (Nat.not_lt.mpr hsize)
  constructor
  · intro h hrecursion
    unfold decodeProcessMessage at h
    split at h
    · rename_i hloaded
      rw [hloaded] at hrecursion
      cases hrecursion
    · cases h
    · cases h
  · intro h
    rw [loadsBytes_message] at h
    have hlimit : 2 ≤ limit := by
      by_contra hshallow
      exact h (loads_message_shallow (Nat.lt_of_not_le hshallow))
    have hloads : loadsBytes floats.parse limit
        (encodeUtf8 (RepositoryGeneration.encodeProgress floats.repr progress)) =
          .ok (.obj (decodedFields (messageItems floats.repr progress))) :=
      loadsBytes_message.trans (loads_message hlimit hvalid hprints)
    unfold decodeProcessMessage
    split
    · rename_i decoded hloaded
      rw [hloads] at hloaded
      cases hloaded
      unfold readMessage
      dsimp only
      rw [isText_status, if_pos rfl, get_progress, progressMessage,
        if_neg (Nat.not_lt.mpr hsize), normalizeProgress_items hvalid hprints]
    · rename_i hloaded
      rw [hloads] at hloaded
      cases hloaded
    · rename_i hloaded
      rw [hloads] at hloaded
      cases hloaded

end Messages

/-! ## Every message -/

/-- **Child responses are checked.** For every response the parent raises a
`RunExecutionError` or takes a checked message from it, and every valid progress
message reads back, exactly where the reader does not run out of stack. -/
theorem child_messages_checked (casefold : List Char → List Char) (pydantic : Pydantic)
    (floats : Floats) (limit : Nat) :
    (∀ response, Checked casefold pydantic floats limit response
        (decodeProcessMessage casefold pydantic floats limit response) ↔
      loadsBytes floats.parse limit response ≠ .error .recursion) ∧
    (∀ progress : DurableRunProgress, progress.Valid →
      (∀ q, progress.coverage = some (some q) → floats.Prints q) →
      ∃ encoded, encodeProgress floats progress = .ok encoded ∧
        (decodeProcessMessage casefold pydantic floats limit encoded = .ok (.progress progress) ↔
          loadsBytes floats.parse limit encoded ≠ .error .recursion)) :=
  ⟨decodeProcessMessage_checked, fun _ hvalid hprints =>
    decodeProcessMessage_progress hvalid hprints⟩

/-! ### A strict model and the float one -/

def strict : Pydantic where
  one value := match value with
    | .int 1 => true
    | _ => false
  int value := match value with
    | .int n => some n
    | _ => none
  float value := match value with
    | .float x => some (some x.value)
    | _ => none
  one_int := rfl
  int_int _ := rfl
  float_float _ := rfl

def ones : Floats where
  parse chars := if chars = oneText.chars then some oneText else none
  repr _ := oneText

theorem oneText_value : oneText.value = 1 := by
  have hdecimal : Json.decimal oneText.chars = ((1 : Nat) : ℚ) := by
    have hdigits : Nat.ofDigitChars 10 ['1', '0'] 0 = 10 := by decide
    show (Nat.ofDigitChars 10 ['1', '0'] 0 : ℚ) * 10 ^ ((0 : Int) - 1) = ((1 : Nat) : ℚ)
    rw [hdigits]
    norm_num
  rw [Json.FloatText.value, hdecimal, Json.binary64_natCast (by norm_num), Nat.cast_one]

def sampleProgress : DurableRunProgress where
  sequence := 0
  phase := .generating
  completed := some 1
  total := some 2
  coverage := some (some 1)
  acceptedCount := none

theorem child_messages_checked_one :
    ∃ encoded, encodeProgress ones sampleProgress = .ok encoded ∧
      (decodeProcessMessage id strict ones 100 encoded = .ok (.progress sampleProgress) ↔
        loadsBytes ones.parse 100 encoded ≠ .error .recursion) := by
  refine (child_messages_checked id strict ones 100).2 sampleProgress ?_ ?_
  · decide
  · intro q hq
    cases hq
    exact ⟨oneText_short, rfl, oneText_value⟩

theorem length_brackets (n : Nat) : (encodeUtf8 (List.replicate n '[')).length = n := by
  rw [length_encodeUtf8, RepositoryGeneration.byteLength_ascii, List.length_replicate]
  intro c hc
  rw [List.eq_of_mem_replicate hc]
  decide

theorem loadsBytes_brackets {parse : List Char → Option Json.FloatText} {limit n : Nat}
    (h : limit < n + 2) :
    loadsBytes parse limit (encodeUtf8 (List.replicate (n + 2) '[')) = .error .recursion := by
  have hascii : ∀ c ∈ List.replicate (n + 2) '[', 0 < c.toNat ∧ c.toNat < 128 := by
    intro c hc
    rw [List.eq_of_mem_replicate hc]
    decide
  exact (loadsBytes_ascii hascii).trans (loads_brackets h)

/-- 66000 opening brackets fit the pipe. The parent's reader runs out of stack, and
what it raises is no `RunExecutionError`. -/
theorem child_messages_brackets :
    (encodeUtf8 (List.replicate 66000 '[')).length ≤ 64 * 1024 + 1024 ∧
    ¬ Checked id strict ones 10000 (encodeUtf8 (List.replicate 66000 '['))
      (decodeProcessMessage id strict ones 10000 (encodeUtf8 (List.replicate 66000 '['))) := by
  constructor
  · rw [length_brackets]
    norm_num
  · intro h
    exact (decodeProcessMessage_checked _).mp h (loadsBytes_brackets (n := 65998) (by norm_num))

end CorpusKit.ProcessMessages
