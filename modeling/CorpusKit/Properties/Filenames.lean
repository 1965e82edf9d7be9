import CorpusKit.Services.Filenames
import Mathlib.Tactic.IntervalCases

/-! # Download names are stable and forwarded

A cleaned name is ASCII and cleaning it again only takes trailing dots away, which
only the cut to 255 characters can leave. The header of the API passes the proxy as
long as the name in it has at most 128 characters. -/

namespace CorpusKit.Filenames

/-! ## Characters -/

theorem isAlphanum_toNat {c : Char} (h : c.isAlphanum = true) :
    48 ≤ c.toNat ∧ c.toNat ≤ 122 ∧ c.toNat ≠ 92 := by
  delta Char.isAlphanum Char.isAlpha Char.isUpper Char.isLower Char.isDigit at h
  simp only [Bool.or_eq_true, Bool.and_eq_true, decide_eq_true_eq, ge_iff_le, UInt32.le_iff_toNat_le] at h
  simp only [Char.toNat]
  have hnine : '9'.val.toNat = 57 := rfl
  have hzero : '0'.val.toNat = 48 := rfl
  have hA : 'A'.val.toNat = 65 := rfl
  have hZ : 'Z'.val.toNat = 90 := rfl
  have ha : 'a'.val.toNat = 97 := rfl
  have hz : 'z'.val.toNat = 122 := rfl
  omega

/-- Safe characters are printable ASCII and no separators of paths. -/
theorem isFilenameChar_toNat {c : Char} (h : isFilenameChar c = true) :
    45 ≤ c.toNat ∧ c.toNat ≠ 47 ∧ c.toNat ≠ 92 ∧ c.toNat ≤ 122 := by
  simp only [isFilenameChar, Bool.or_eq_true, List.contains_iff_mem, List.mem_cons,
    List.not_mem_nil, or_false] at h
  rcases h with h | rfl | rfl | rfl
  · have := isAlphanum_toNat h
    omega
  all_goals decide

theorem isFilenameChar_lt {c : Char} (h : isFilenameChar c = true) : c.toNat < 128 := by
  have := isFilenameChar_toNat h
  omega

theorem isFilenameChar_ne {c d : Char} (h : isFilenameChar c = true)
    (hd : isFilenameChar d = false) : c ≠ d := by
  intro heq
  rw [heq, hd] at h
  exact Bool.false_ne_true h

theorem isControl_filenameChar {c : Char} (h : isFilenameChar c = true) : isControl c = false := by
  have := isFilenameChar_toNat h
  simp only [isControl, Bool.or_eq_false_iff, decide_eq_false_iff_not, beq_eq_false_iff_ne]
  omega

/-! ## The steps of cleaning -/

theorem mem_replaceUnsafe {c : Char} {text : List Char} :
    ∀ {inRun : Bool}, c ∈ replaceUnsafe inRun text → isFilenameChar c = true := by
  induction text with
  | nil => intro inRun h; simp [replaceUnsafe] at h
  | cons d text ih =>
    intro inRun h
    rw [replaceUnsafe] at h
    split at h
    · next hd =>
      rcases List.mem_cons.mp h with rfl | h
      · exact hd
      · exact ih h
    · split at h
      · exact ih h
      · rcases List.mem_cons.mp h with rfl | h
        · rfl
        · exact ih h

theorem replaceUnsafe_fixed {text : List Char} (h : ∀ c ∈ text, isFilenameChar c = true) :
    ∀ inRun, replaceUnsafe inRun text = text := by
  induction text with
  | nil => intro inRun; rfl
  | cons c text ih =>
    intro inRun
    rw [replaceUnsafe, if_pos (h c List.mem_cons_self),
      ih (fun d hd => h d (List.mem_cons_of_mem c hd))]

theorem asciiOnly_fixed {text : List Char} (h : ∀ c ∈ text, isFilenameChar c = true) :
    asciiOnly text = text :=
  List.filter_eq_self.mpr fun c hc => decide_eq_true (isFilenameChar_lt (h c hc))

theorem mem_strip {p : Char → Bool} {text : List Char} {c : Char} (h : c ∈ strip p text) :
    c ∈ text :=
  (List.dropWhile_sublist p).subset (List.rdropWhile_prefix p (text.dropWhile p) |>.subset h)

theorem head?_dropWhile {p : Char → Bool} {text : List Char} {c : Char}
    (h : (text.dropWhile p).head? = some c) : p c = false := by
  have := List.head?_dropWhile_not p text
  rw [h] at this
  simpa using this

theorem head?_strip {p : Char → Bool} {text : List Char} {c : Char}
    (h : (strip p text).head? = some c) : p c = false := by
  refine head?_dropWhile (?_ : (text.dropWhile p).head? = some c)
  obtain ⟨rest, hrest⟩ := List.rdropWhile_prefix p (text.dropWhile p)
  rw [← hrest, List.head?_append]
  rw [strip] at h
  rw [h]
  rfl

theorem getLast?_rdropWhile {p : Char → Bool} {text : List Char} {c : Char}
    (h : (text.rdropWhile p).getLast? = some c) : p c = false := by
  by_cases hnil : text.rdropWhile p = []
  · rw [hnil] at h
    cases h
  · rw [List.getLast?_eq_some_getLast hnil, Option.some.injEq] at h
    rw [← h]
    exact Bool.eq_false_iff.mpr (List.rdropWhile_last_not p text hnil)

theorem rdropWhile_fixed_iff {p : Char → Bool} {text : List Char} :
    text.rdropWhile p = text ↔ ∀ c, text.getLast? = some c → p c = false := by
  constructor
  · intro h c hc
    rw [← h] at hc
    exact getLast?_rdropWhile hc
  · intro h
    refine List.rdropWhile_eq_self_iff.mpr fun hne hlast => ?_
    rw [h _ (List.getLast?_eq_some_getLast hne)] at hlast
    exact Bool.false_ne_true hlast

/-! ## Names as the cleaning opens them -/

/-- A non-empty name of safe characters that no step rewrites at its start. -/
structure Opening (name : List Char) : Prop where
  nonempty : name ≠ []
  chars : ∀ c ∈ name, isFilenameChar c = true
  first : ∀ c, name.head? = some c → c ≠ '.' ∧ c ≠ '-'

theorem Opening.take {name : List Char} (h : Opening name) {n : Nat} (hn : 0 < n) :
    Opening (name.take n) where
  nonempty := by
    intro hnil
    rcases List.take_eq_nil_iff.mp hnil with hzero | hname
    · omega
    · exact h.nonempty hname
  chars := fun c hc => h.chars c (List.mem_of_mem_take hc)
  first := by
    intro c hc
    refine h.first c ?_
    rwa [List.head?_take, if_neg (by omega)] at hc

theorem Opening.rdropWhile_ne_nil {name : List Char} (h : Opening name) :
    name.rdropWhile isDot ≠ [] := by
  intro hnil
  have hdots := List.rdropWhile_eq_nil_iff.mp hnil
  obtain ⟨c, rest, rfl⟩ := List.exists_cons_of_ne_nil h.nonempty
  exact (h.first c rfl).1 (by simpa [isDot] using hdots c List.mem_cons_self)

theorem Opening.rdropWhile {name : List Char} (h : Opening name) :
    Opening (name.rdropWhile isDot) where
  nonempty := h.rdropWhile_ne_nil
  chars := fun c hc => h.chars c ((List.rdropWhile_prefix isDot name).subset hc)
  first := by
    intro c hc
    obtain ⟨rest, hrest⟩ := List.rdropWhile_prefix isDot name
    refine h.first c ?_
    rw [← hrest, List.head?_append, hc]
    rfl

/-- `strip` of safe characters, before the default and the formula check. -/
def strippedName (nfkd : List Char → List Char) (value : List Char) : List Char :=
  strip isDot (replaceUnsafe false (asciiOnly (nfkd value)))

variable {nfkd : List Char → List Char} {value name : List Char}

theorem mem_strippedName {c : Char} (h : c ∈ strippedName nfkd value) : isFilenameChar c = true :=
  mem_replaceUnsafe (mem_strip h)

theorem strippedName_first {c : Char} (h : (strippedName nfkd value).head? = some c) :
    c ≠ '.' := by
  intro hc
  have := head?_strip h
  rw [hc] at this
  cases this

theorem strippedName_last {c : Char} (h : (strippedName nfkd value).getLast? = some c) :
    c ≠ '.' := by
  intro hc
  have := getLast?_rdropWhile h
  rw [hc] at this
  cases this

theorem formulaPrefixes_filenameChar {c : Char} (h : isFilenameChar c = true) :
    formulaPrefixes.contains c = (c == '-') := by
  by_cases hdash : c = '-'
  · rw [hdash]
    rfl
  · have h1 : c ≠ '=' := isFilenameChar_ne h rfl
    have h2 : c ≠ '+' := isFilenameChar_ne h rfl
    have h3 : c ≠ '@' := isFilenameChar_ne h rfl
    have h4 : c ≠ '\t' := isFilenameChar_ne h rfl
    have h5 : c ≠ '\r' := isFilenameChar_ne h rfl
    simp [formulaPrefixes, hdash, h1, h2, h3, h4, h5]

/-- What follows the stripping, of a text of safe characters. -/
theorem cleanedName_cases (nfkd : List Char → List Char) (value : List Char) :
    (strippedName nfkd value = [] ∧ cleanedName nfkd value = "artifact.bin".toList) ∨
    (∃ text, strippedName nfkd value = '-' :: text ∧
      cleanedName nfkd value = '_' :: text.dropWhile (['=', '+', '-', '@'].contains ·)) ∨
    (Opening (strippedName nfkd value) ∧ cleanedName nfkd value = strippedName nfkd value) := by
  have hchars : ∀ c ∈ strippedName nfkd value, isFilenameChar c = true := fun c => mem_strippedName
  have hfirst : ∀ c, (strippedName nfkd value).head? = some c → c ≠ '.' := fun c => strippedName_first
  have hcleaned : cleanedName nfkd value =
      (let normalized := if (strippedName nfkd value).isEmpty then "artifact.bin".toList
        else strippedName nfkd value
       if normalized.head?.any (formulaPrefixes.contains ·) then
        '_' :: normalized.dropWhile (['=', '+', '-', '@'].contains ·)
       else normalized) := rfl
  rw [hcleaned]
  generalize strippedName nfkd value = stripped at hchars hfirst
  match stripped with
  | [] => exact Or.inl ⟨rfl, rfl⟩
  | c :: text =>
    have hc := formulaPrefixes_filenameChar (hchars c List.mem_cons_self)
    by_cases hdash : c = '-'
    · subst hdash
      exact Or.inr (Or.inl ⟨text, rfl, rfl⟩)
    · refine Or.inr (Or.inr ⟨⟨List.cons_ne_nil c text, hchars, ?_⟩, ?_⟩)
      · intro d hd
        cases hd
        exact ⟨hfirst c rfl, hdash⟩
      · have : ((c :: text).head?.any (formulaPrefixes.contains ·)) = false := by
          rw [List.head?_cons, Option.any_some, hc]
          simpa using hdash
        simp only [List.isEmpty_cons, Bool.false_eq_true, if_false, this]

theorem cleanedName_opening (nfkd : List Char → List Char) (value : List Char) :
    Opening (cleanedName nfkd value) := by
  have hchars : ∀ c ∈ strippedName nfkd value, isFilenameChar c = true := fun c => mem_strippedName
  rcases cleanedName_cases nfkd value with ⟨-, h⟩ | ⟨text, hstripped, h⟩ | ⟨hopening, h⟩
  · rw [h]
    refine ⟨by simp, ?_, ?_⟩
    · simp
      decide
    · intro c hc
      cases hc
      decide
  · rw [h]
    refine ⟨List.cons_ne_nil _ _, ?_, ?_⟩
    · intro c hc
      rcases List.mem_cons.mp hc with rfl | hc
      · rfl
      · refine hchars c ?_
        rw [hstripped]
        exact List.mem_cons_of_mem '-' ((List.dropWhile_sublist _).subset hc)
    · intro c hc
      cases hc
      decide
  · rw [h]
    exact hopening

theorem cleanedName_last (nfkd : List Char → List Char) (value : List Char) :
    (cleanedName nfkd value).getLast? ≠ some '.' := by
  intro hdot
  rcases cleanedName_cases nfkd value with ⟨-, h⟩ | ⟨text, hstripped, h⟩ | ⟨-, h⟩
  · rw [h] at hdot
    exact absurd hdot (by decide)
  · rw [h] at hdot
    by_cases hnil : text.dropWhile (['=', '+', '-', '@'].contains ·) = []
    · rw [hnil] at hdot
      exact absurd hdot (by decide)
    · have hlast : (strippedName nfkd value).getLast? = some '.' := by
        obtain ⟨front, hfront⟩ := List.dropWhile_suffix (l := text) (['=', '+', '-', '@'].contains ·)
        rw [hstripped, ← hfront, ← List.cons_append, List.getLast?_append_of_ne_nil _ hnil]
        rwa [← List.singleton_append, List.getLast?_append_of_ne_nil _ hnil] at hdot
      exact strippedName_last hlast rfl
  · rw [h] at hdot
    exact strippedName_last hdot rfl

/-! ## Cleaning a cleaned name -/

/-- Compatibility decomposition leaves ASCII alone. -/
def FixesAscii (nfkd : List Char → List Char) : Prop :=
  ∀ text : List Char, (∀ c ∈ text, c.toNat < 128) → nfkd text = text

theorem dropWhile_isDot (h : Opening name) : name.dropWhile isDot = name := by
  obtain ⟨c, rest, rfl⟩ := List.exists_cons_of_ne_nil h.nonempty
  have hc : isDot c = false := by simpa [isDot] using (h.first c rfl).1
  rw [List.dropWhile_cons, hc]
  rfl

theorem cleanedName_of_opening (hnfkd : FixesAscii nfkd) (h : Opening name) :
    cleanedName nfkd name = name.rdropWhile isDot := by
  have hstripped : strippedName nfkd name = name.rdropWhile isDot := by
    rw [strippedName, hnfkd name fun c hc => isFilenameChar_lt (h.chars c hc),
      asciiOnly_fixed h.chars, replaceUnsafe_fixed h.chars, strip, dropWhile_isDot h]
  rcases cleanedName_cases nfkd name with ⟨hnil, -⟩ | ⟨text, hdash, -⟩ | ⟨-, hsame⟩
  · exact absurd (hstripped.symm.trans hnil) h.rdropWhile_ne_nil
  · have := h.rdropWhile.first '-' (by rw [← hstripped, hdash]; rfl)
    exact absurd rfl this.2
  · rw [hsame, hstripped]

theorem length_encodeUtf8_ascii {text : List Char} (h : ∀ c ∈ text, c.toNat < 128) :
    (encodeUtf8 text).length = text.length := by
  induction text with
  | nil => rfl
  | cons c text ih =>
    have hc : c.utf8Size = 1 := Char.utf8Size_eq_one_iff.mpr
      (Nat.le_of_lt_succ (h c List.mem_cons_self))
    have hrest := ih fun d hd => h d (List.mem_cons_of_mem c hd)
    rw [encodeUtf8] at hrest ⊢
    rw [List.flatMap_cons, List.length_append, String.length_utf8EncodeChar, hc, hrest,
      List.length_cons, Nat.add_comm]

theorem isUnsafeName_of_opening (h : Opening name) (hlength : name.length ≤ maxFilenameBytes) :
    isUnsafeName name = false := by
  have hbytes := length_encodeUtf8_ascii fun c hc => isFilenameChar_lt (h.chars c hc)
  have hcontrol : name.any isControl = false := by
    rw [List.any_eq_false]
    intro c hc
    rw [isControl_filenameChar (h.chars c hc)]
    exact Bool.false_ne_true
  have hmissing : ∀ d, isFilenameChar d = false → name.contains d = false := by
    intro d hd
    rw [← Bool.not_eq_true, List.contains_iff_mem]
    intro hmem
    rw [h.chars d hmem] at hd
    cases hd
  obtain ⟨c, rest, hname⟩ := List.exists_cons_of_ne_nil h.nonempty
  have hc : c ≠ '.' := (h.first c (by rw [hname]; rfl)).1
  have hone : name ≠ ['.'] := by
    intro heq
    rw [heq, List.cons.injEq] at hname
    exact hc hname.1.symm
  have htwo : name ≠ ['.', '.'] := by
    intro heq
    rw [heq, List.cons.injEq] at hname
    exact hc hname.1.symm
  simp only [isUnsafeName, hbytes, hcontrol, hmissing '/' rfl, hmissing '\\' rfl,
    Bool.or_eq_false_iff, decide_eq_false_iff_not, beq_eq_false_iff_ne, List.isEmpty_eq_false_iff]
  exact ⟨⟨⟨⟨⟨⟨h.nonempty, by omega⟩, trivial⟩, trivial⟩, trivial⟩, hone⟩, htwo⟩

/-- Cleaning again takes the trailing dots away, and nothing else. -/
theorem safeDownloadFilename_of_opening (hnfkd : FixesAscii nfkd) (h : Opening name)
    (hlength : name.length ≤ maxFilenameBytes) :
    safeDownloadFilename nfkd name = some (name.rdropWhile isDot) := by
  have hshort : (name.rdropWhile isDot).length ≤ maxFilenameBytes :=
    (List.rdropWhile_prefix isDot name).length_le.trans hlength
  rw [safeDownloadFilename, isUnsafeName_of_opening h hlength, if_neg Bool.false_ne_true,
    cleanedName_of_opening hnfkd h, List.take_of_length_le hshort]

theorem safeDownloadFilename_eq (h : safeDownloadFilename nfkd value = some name) :
    name = (cleanedName nfkd value).take maxFilenameBytes := by
  rw [safeDownloadFilename] at h
  split at h
  · cases h
  · exact (Option.some.inj h).symm

theorem safeDownloadFilename_opening (h : safeDownloadFilename nfkd value = some name) :
    Opening name ∧ name.length ≤ maxFilenameBytes := by
  rw [safeDownloadFilename_eq h]
  exact ⟨(cleanedName_opening nfkd value).take (by decide), by
    rw [List.length_take]
    exact Nat.min_le_left _ _⟩

/-! ## Where a name is cut -/

theorem rdropWhile_append (p : Char → Bool) (front rest : List Char) :
    (front ++ rest).rdropWhile p =
      if rest.rdropWhile p = [] then front.rdropWhile p else front ++ rest.rdropWhile p := by
  simp only [List.rdropWhile, List.reverse_append, List.dropWhile_append, List.isEmpty_iff,
    List.reverse_eq_nil_iff]
  split
  · rfl
  · rw [List.reverse_append, List.reverse_reverse]

/-- A dot that is left when the dots at the end are gone has another character after it. -/
theorem rdropWhile_dot_iff {text : List Char} {n : Nat} :
    (text.rdropWhile isDot)[n]? = some '.' ↔
      ∃ front rest, text = front ++ '.' :: rest ∧ front.length = n ∧ ∃ c ∈ rest, c ≠ '.' := by
  constructor
  · intro h
    obtain ⟨hn, hdot⟩ := List.getElem?_eq_some_iff.mp h
    have hsplit : text.rdropWhile isDot = (text.rdropWhile isDot).take n ++
        '.' :: (text.rdropWhile isDot).drop (n + 1) := by
      rw [← hdot, List.getElem_cons_drop, List.take_append_drop]
    have htext := (List.rdropWhile_append_rtakeWhile (p := isDot) (l := text)).symm
    refine ⟨(text.rdropWhile isDot).take n,
      (text.rdropWhile isDot).drop (n + 1) ++ text.rtakeWhile isDot, ?_, ?_, ?_⟩
    · rw [← List.cons_append, ← List.append_assoc, ← hsplit]
      exact htext
    · rw [List.length_take]
      omega
    · have hne : (text.rdropWhile isDot).drop (n + 1) ≠ [] := by
        intro hnil
        rw [hnil] at hsplit
        have hlast : (text.rdropWhile isDot).getLast? = some '.' := by
          rw [hsplit, List.getLast?_append]
          rfl
        exact absurd (getLast?_rdropWhile hlast) (by decide)
      refine ⟨_, List.mem_append_left _ (List.getLast_mem hne), fun heq => ?_⟩
      have hlast : (text.rdropWhile isDot).getLast? = some '.' := by
        rw [hsplit, List.getLast?_append_of_ne_nil _ (List.cons_ne_nil _ _),
          List.getLast?_cons, List.getLast?_eq_some_getLast hne, heq]
        rfl
      exact absurd (getLast?_rdropWhile hlast) (by decide)
  · rintro ⟨front, rest, rfl, rfl, c, hc, hne⟩
    have hrest : rest.rdropWhile isDot ≠ [] := by
      intro hnil
      exact hne (by simpa [isDot] using List.rdropWhile_eq_nil_iff.mp hnil c hc)
    rw [← List.singleton_append, ← List.append_assoc, rdropWhile_append, if_neg hrest,
      List.append_assoc, List.getElem?_append_right (Nat.le_refl _), Nat.sub_self]
    rfl

theorem dropWhile_rdropWhile {p q : Char → Bool} (h : ∀ c, p c = true → q c = false)
    (text : List Char) :
    (text.rdropWhile q).dropWhile p = (text.dropWhile p).rdropWhile q := by
  have hsplit := List.takeWhile_append_dropWhile (p := p) (l := text)
  have hfront : ∀ c ∈ text.takeWhile p, p c = true := fun c hc => List.mem_takeWhile_imp hc
  have hkeeps : (text.takeWhile p).rdropWhile q = text.takeWhile p :=
    rdropWhile_fixed_iff.mpr fun c hc => h c (hfront c (List.mem_of_getLast? hc))
  conv_lhs => rw [← hsplit, rdropWhile_append]
  split
  · next hnil =>
    rw [hkeeps, hnil]
    exact List.dropWhile_eq_nil_iff.mpr hfront
  · next hne =>
    rw [List.dropWhile_append_of_pos hfront]
    obtain ⟨c, rest, hrest⟩ := List.exists_cons_of_ne_nil hne
    obtain ⟨dropped, hdropped⟩ := List.rdropWhile_prefix q (text.dropWhile p)
    have hc : p c = false := by
      refine head?_dropWhile (?_ : (text.dropWhile p).head? = some c)
      rw [← hdropped, hrest]
      rfl
    rw [hrest, List.dropWhile_cons, hc]
    rfl

/-- What the formula check takes away at the start of a name. -/
def isFormulaChar (c : Char) : Bool := ['=', '+', '-', '@'].contains c

theorem isFormulaChar_filenameChar {c : Char} (h : isFilenameChar c = true) :
    isFormulaChar c = (c == '-') := by
  by_cases hdash : c = '-'
  · rw [hdash]
    rfl
  · have h1 : c ≠ '=' := isFilenameChar_ne h rfl
    have h2 : c ≠ '+' := isFilenameChar_ne h rfl
    have h3 : c ≠ '@' := isFilenameChar_ne h rfl
    simp [isFormulaChar, hdash, h1, h2, h3]

theorem replaceUnsafe_dropWhile_dot (text : List Char) :
    (replaceUnsafe false text).dropWhile isDot = replaceUnsafe false (text.dropWhile isDot) := by
  induction text with
  | nil => rfl
  | cons c text ih =>
    by_cases hdot : isDot c = true
    · have hc : isFilenameChar c = true := by
        rw [beq_iff_eq.mp hdot]
        rfl
      rw [replaceUnsafe, if_pos hc, List.dropWhile_cons_of_pos hdot,
        List.dropWhile_cons_of_pos hdot, ih]
    · rw [List.dropWhile_cons_of_neg hdot, replaceUnsafe]
      split
      · exact List.dropWhile_cons_of_neg hdot
      · rw [if_neg Bool.false_ne_true]
        exact List.dropWhile_cons_of_neg (by decide)

/-- A dash, or a character a dash replaces. -/
def isOpening (c : Char) : Bool := c == '-' || !isFilenameChar c

theorem replaceUnsafe_dropWhile_opening (text : List Char) : ∀ inRun,
    (replaceUnsafe inRun text).dropWhile isFormulaChar =
      replaceUnsafe false (text.dropWhile isOpening) := by
  induction text with
  | nil => intro inRun; rfl
  | cons c text ih =>
    intro inRun
    rw [replaceUnsafe]
    by_cases hc : isFilenameChar c = true
    · have hformula := isFormulaChar_filenameChar hc
      rw [if_pos hc]
      by_cases hdash : c = '-'
      · rw [List.dropWhile_cons_of_pos (by rw [hformula, hdash]; rfl),
          List.dropWhile_cons_of_pos (by rw [isOpening, hdash]; rfl), ih]
      · have hbeq : (c == '-') = false := beq_eq_false_iff_ne.mpr hdash
        rw [List.dropWhile_cons_of_neg (by rw [hformula, hbeq]; exact Bool.false_ne_true),
          List.dropWhile_cons_of_neg (by rw [isOpening, hbeq, hc]; exact Bool.false_ne_true),
          replaceUnsafe, if_pos hc]
    · have hopening : isOpening c = true := by
        rw [isOpening, Bool.eq_false_iff.mpr hc, Bool.not_false, Bool.or_true]
      rw [if_neg hc, List.dropWhile_cons_of_pos hopening]
      split
      · exact ih true
      · rw [List.dropWhile_cons_of_pos (by rfl)]
        exact ih true

theorem replaceUnsafe_append_dot (rest : List Char) (front : List Char) : ∀ inRun,
    replaceUnsafe inRun (front ++ '.' :: rest) =
      replaceUnsafe inRun front ++ '.' :: replaceUnsafe false rest := by
  induction front with
  | nil => intro inRun; rfl
  | cons c front ih =>
    intro inRun
    rw [List.cons_append, replaceUnsafe, replaceUnsafe]
    split
    · rw [ih, List.cons_append]
    · split
      · exact ih true
      · rw [ih, List.cons_append]

/-- A dot of the replaced text is a dot of the text. -/
theorem exists_of_replaceUnsafe_append {rest' : List Char} {text : List Char} :
    ∀ {inRun front'}, replaceUnsafe inRun text = front' ++ '.' :: rest' →
      ∃ front rest, text = front ++ '.' :: rest ∧ replaceUnsafe inRun front = front' ∧
        replaceUnsafe false rest = rest' := by
  induction text with
  | nil =>
    intro inRun front' h
    cases front' <;> cases h
  | cons c text ih =>
    intro inRun front' h
    rw [replaceUnsafe] at h
    split at h
    · next hc =>
      match front', h with
      | [], h =>
        rw [List.nil_append, List.cons.injEq] at h
        exact ⟨[], text, by rw [h.1]; rfl, rfl, h.2⟩
      | d :: front', h =>
        rw [List.cons_append, List.cons.injEq] at h
        obtain ⟨front, rest, htext, hfront, hrest⟩ := ih h.2
        exact ⟨c :: front, rest, by rw [htext]; rfl,
          by rw [replaceUnsafe, if_pos hc, hfront, h.1], hrest⟩
    · next hc =>
      split at h
      · next hrun =>
        obtain ⟨front, rest, htext, hfront, hrest⟩ := ih h
        exact ⟨c :: front, rest, by rw [htext]; rfl,
          by rw [replaceUnsafe, if_neg hc, if_pos hrun, hfront], hrest⟩
      · next hrun =>
        match front', h with
        | [], h => exact absurd (List.cons.inj h).1 (by decide)
        | d :: front', h =>
          rw [List.cons_append, List.cons.injEq] at h
          obtain ⟨front, rest, htext, hfront, hrest⟩ := ih h.2
          exact ⟨c :: front, rest, by rw [htext]; rfl,
            by rw [replaceUnsafe, if_neg hc, if_neg hrun, hfront, h.1], hrest⟩

theorem replaceUnsafe_dots (text : List Char) : ∀ inRun,
    (∃ c ∈ replaceUnsafe inRun text, c ≠ '.') → ∃ c ∈ text, c ≠ '.' := by
  induction text with
  | nil =>
    rintro inRun ⟨c, hc, -⟩
    cases hc
  | cons d text ih =>
    intro inRun h
    by_cases hdot : d = '.'
    · subst hdot
      obtain ⟨c, hc, hne⟩ := h
      rw [replaceUnsafe, if_pos (by rfl)] at hc
      obtain ⟨e, he, hne'⟩ := ih false ⟨c, (List.mem_cons.mp hc).resolve_left hne, hne⟩
      exact ⟨e, List.mem_cons_of_mem _ he, hne'⟩
    · exact ⟨d, List.mem_cons_self, hdot⟩

theorem exists_ne_replaceUnsafe {text : List Char} (h : ∃ c ∈ text, c ≠ '.') :
    ∃ c ∈ replaceUnsafe false text, c ≠ '.' := by
  by_contra hall
  push Not at hall
  obtain ⟨c, hc, hne⟩ := h
  have hreplaced : (replaceUnsafe false text).dropWhile isDot = [] :=
    List.dropWhile_eq_nil_iff.mpr fun d hd => by rw [hall d hd]; rfl
  rw [replaceUnsafe_dropWhile_dot] at hreplaced
  cases hshown : text.dropWhile isDot with
  | nil => exact hne (by simpa [isDot] using List.dropWhile_eq_nil_iff.mp hshown c hc)
  | cons d rest =>
    rw [hshown, replaceUnsafe] at hreplaced
    split at hreplaced <;> cases hreplaced

/-- The characters of a text, every run of unsafe ones counted as one. -/
def width (text : List Char) : Nat :=
  text.countP isFilenameChar +
    (text.splitOnP isFilenameChar).countP fun run => !run.isEmpty

theorem length_replaceUnsafe (text : List Char) :
    (replaceUnsafe false text).length = width text ∧
      (replaceUnsafe true text).length +
        (if (text.splitOnP isFilenameChar).head?.any (!·.isEmpty) then 1 else 0) = width text := by
  induction text with
  | nil => exact ⟨rfl, rfl⟩
  | cons c text ih =>
    obtain ⟨hfalse, htrue⟩ := ih
    obtain ⟨run, runs, hruns⟩ := List.exists_cons_of_ne_nil
      (List.splitOnP_ne_nil isFilenameChar text)
    rw [width, hruns] at hfalse htrue
    rw [width, List.splitOnP_cons_eq_if_modifyHead, hruns]
    by_cases hc : isFilenameChar c = true
    · rw [replaceUnsafe, if_pos hc, replaceUnsafe, if_pos hc, if_pos hc, List.countP_cons_of_pos hc,
        List.length_cons, hfalse]
      simp only [List.countP_cons, List.isEmpty_nil, Bool.not_true, Bool.false_eq_true, if_false,
        List.head?_cons, Option.any_some]
      omega
    · rw [replaceUnsafe, if_neg hc, if_neg Bool.false_ne_true, replaceUnsafe, if_neg hc,
        if_pos rfl, if_neg hc, List.countP_cons_of_neg hc, List.length_cons]
      cases run with
      | nil =>
        simp only [List.modifyHead_cons, List.countP_cons, List.head?_cons, Option.any_some,
          List.isEmpty_nil, List.isEmpty_cons, Bool.not_true, Bool.not_false, Bool.false_eq_true,
          if_false, if_true] at htrue ⊢
        omega
      | cons d run =>
        simp only [List.modifyHead_cons, List.countP_cons, List.head?_cons, Option.any_some,
          List.isEmpty_cons, Bool.not_false, if_true] at htrue ⊢
        omega

/-- The 255th character of a name is a dot, and not one of the dots at its end. Dots at
the start of the name do not count, and dashes and unsafe characters that follow them
count as one. -/
def CutAtDot (text : List Char) : Prop :=
  let shown := text.dropWhile isDot
  let body := shown.dropWhile isOpening
  ∃ i < body.length, body[i]? = some '.' ∧ (∃ c ∈ body.drop (i + 1), c ≠ '.') ∧
    min 1 (shown.takeWhile isOpening).length + width (body.take i) = 254

theorem width_le (text : List Char) : width text ≤ text.length := by
  have hshort : ∀ inRun, (replaceUnsafe inRun text).length ≤ text.length := by
    induction text with
    | nil => exact fun _ => Nat.le_refl 0
    | cons c text ih =>
      intro inRun
      rw [replaceUnsafe, List.length_cons]
      split
      · exact Nat.succ_le_succ (ih false)
      · split
        · exact Nat.le_succ_of_le (ih true)
        · exact Nat.succ_le_succ (ih true)
  rw [← (length_replaceUnsafe text).1]
  exact hshort false

/-- A name of at most 255 characters has nothing to cut. -/
theorem not_cutAtDot {text : List Char} (h : text.length ≤ maxFilenameBytes) :
    ¬CutAtDot text := by
  rintro ⟨i, -, -, ⟨c, hc, -⟩, hwidth⟩
  have hbody := List.length_pos_of_mem hc
  have hshown := (text.dropWhile_sublist isDot).length_le
  have hsplit := congrArg List.length
    (List.takeWhile_append_dropWhile (p := isOpening) (l := text.dropWhile isDot))
  have hle := width_le (((text.dropWhile isDot).dropWhile isOpening).take i)
  rw [List.length_drop] at hbody
  rw [List.length_append] at hsplit
  rw [List.length_take] at hle
  rw [maxFilenameBytes] at h
  omega

theorem replaceUnsafe_dot_iff {body : List Char} {n : Nat} :
    ((replaceUnsafe false body).rdropWhile isDot)[n]? = some '.' ↔
      ∃ i < body.length, body[i]? = some '.' ∧ (∃ c ∈ body.drop (i + 1), c ≠ '.') ∧
        width (body.take i) = n := by
  rw [rdropWhile_dot_iff]
  constructor
  · rintro ⟨front', rest', htext, hlength, hrest⟩
    obtain ⟨front, rest, hbody, hfront, rfl⟩ := exists_of_replaceUnsafe_append htext
    refine ⟨front.length, ?_, ?_, ?_, ?_⟩
    · rw [hbody, List.length_append, List.length_cons]
      omega
    · rw [hbody, List.getElem?_append_right (Nat.le_refl _), Nat.sub_self]
      rfl
    · rw [hbody, ← List.singleton_append, ← List.append_assoc,
        List.drop_left' (by rw [List.length_append]; rfl)]
      exact replaceUnsafe_dots rest false hrest
    · rw [hbody, List.take_left, ← (length_replaceUnsafe front).1, hfront, hlength]
  · rintro ⟨i, hi, hdot, hrest, hwidth⟩
    have hbody : body = body.take i ++ '.' :: body.drop (i + 1) := by
      obtain ⟨_, hget⟩ := List.getElem?_eq_some_iff.mp hdot
      rw [← hget, List.getElem_cons_drop, List.take_append_drop]
    refine ⟨replaceUnsafe false (body.take i), replaceUnsafe false (body.drop (i + 1)), ?_, ?_,
      exists_ne_replaceUnsafe hrest⟩
    · conv_lhs => rw [hbody]
      exact replaceUnsafe_append_dot _ _ false
    · rw [(length_replaceUnsafe _).1, hwidth]

theorem strippedName_eq (nfkd : List Char → List Char) (value : List Char) :
    strippedName nfkd value =
      (replaceUnsafe false ((asciiOnly (nfkd value)).dropWhile isDot)).rdropWhile isDot := by
  rw [strippedName, strip, replaceUnsafe_dropWhile_dot]

theorem strippedName_dropWhile (nfkd : List Char → List Char) (value : List Char) :
    (strippedName nfkd value).dropWhile isFormulaChar =
      (replaceUnsafe false (((asciiOnly (nfkd value)).dropWhile isDot).dropWhile
        isOpening)).rdropWhile isDot := by
  rw [strippedName_eq, dropWhile_rdropWhile, replaceUnsafe_dropWhile_opening]
  intro c hc
  refine beq_eq_false_iff_ne.mpr ?_
  rintro rfl
  exact absurd hc (by decide)

/-- A stripped name starts with a dash when a dash, or an unsafe character, follows the
dots at the start of the name. -/
theorem strippedName_dash {c : Char} (h : (strippedName nfkd value).head? = some c) :
    ((asciiOnly (nfkd value)).dropWhile isDot).takeWhile isOpening = [] ↔ c ≠ '-' := by
  obtain ⟨dots, hdots⟩ := List.rdropWhile_prefix isDot
    (replaceUnsafe false ((asciiOnly (nfkd value)).dropWhile isDot))
  have hhead : (replaceUnsafe false ((asciiOnly (nfkd value)).dropWhile isDot)).head? = some c := by
    rw [← hdots, ← strippedName_eq, List.head?_append, h]
    rfl
  cases hshown : (asciiOnly (nfkd value)).dropWhile isDot with
  | nil =>
    rw [hshown] at hhead
    cases hhead
  | cons d rest =>
    rw [hshown, replaceUnsafe] at hhead
    rw [List.takeWhile_cons, isOpening]
    split at hhead
    · next hd =>
      cases hhead
      rw [hd]
      by_cases hdash : c = '-' <;> simp [hdash]
    · next hd =>
      cases hhead
      simp [hd]

theorem cleanedName_dot_iff (nfkd : List Char → List Char) (value : List Char) :
    (cleanedName nfkd value)[254]? = some '.' ↔ CutAtDot (asciiOnly (nfkd value)) := by
  have hrest := strippedName_dropWhile nfkd value
  have hdash := @strippedName_dash nfkd value
  have hcut : ∀ k, min 1 (((asciiOnly (nfkd value)).dropWhile isDot).takeWhile isOpening).length = k →
      k ≤ 254 → (((strippedName nfkd value).dropWhile isFormulaChar)[254 - k]? = some '.' ↔
        CutAtDot (asciiOnly (nfkd value))) := by
    intro k hk hle
    rw [hrest, replaceUnsafe_dot_iff, CutAtDot, hk]
    refine exists_congr fun i => and_congr_right fun _ => and_congr_right fun _ =>
      and_congr_right fun _ => ?_
    omega
  rcases cleanedName_cases nfkd value with ⟨hnil, h⟩ | ⟨text, hstripped, h⟩ | ⟨hopening, h⟩
  · rw [← hcut _ rfl (by omega), h, hnil]
    exact iff_of_false (by decide) (by simp)
  · have hopens : ((asciiOnly (nfkd value)).dropWhile isDot).takeWhile isOpening ≠ [] :=
      fun hnone => (hdash (c := '-') (by rw [hstripped]; rfl)).mp hnone rfl
    have hpos := List.length_pos_of_ne_nil hopens
    rw [← hcut 1 (by omega) (by decide), h, hstripped,
      List.dropWhile_cons_of_pos (show isFormulaChar '-' = true from rfl)]
    rfl
  · obtain ⟨c, rest, hname⟩ := List.exists_cons_of_ne_nil hopening.nonempty
    have hc := (hopening.first c (by rw [hname]; rfl)).2
    have hformula : isFormulaChar c = false := by
      rw [isFormulaChar_filenameChar (hopening.chars c (by rw [hname]; exact List.mem_cons_self))]
      exact beq_eq_false_iff_ne.mpr hc
    have hnone := (hdash (c := c) (by rw [hname]; rfl)).mpr hc
    rw [← hcut 0 (by rw [hnone]; rfl) (by decide), h, hname, List.dropWhile_cons, hformula]
    rfl

/-! ## Download names -/

/-- What a download name promises. -/
structure SafeName (name : List Char) : Prop where
  nonempty : name ≠ []
  length : name.length ≤ maxFilenameBytes
  ascii : ∀ c ∈ name, c.toNat < 128
  chars : ∀ c ∈ name, isFilenameChar c = true
  formula : ∀ c, name.head? = some c → c ∉ formulaPrefixes
  first : name.head? ≠ some '.'
  last : name.getLast? ≠ some '.'

theorem Opening.safe (h : Opening name) (hlength : name.length ≤ maxFilenameBytes)
    (hlast : name.getLast? ≠ some '.') : SafeName name where
  nonempty := h.nonempty
  length := hlength
  ascii := fun c hc => isFilenameChar_lt (h.chars c hc)
  chars := h.chars
  formula := by
    intro c hc hmem
    have := formulaPrefixes_filenameChar (h.chars c (List.mem_of_head? hc))
    rw [List.contains_iff_mem.mpr hmem, eq_comm, beq_iff_eq] at this
    exact (h.first c hc).2 this
  first := fun hdot => (h.first '.' hdot).1 rfl
  last := hlast

theorem getLast?_cut (nfkd : List Char → List Char) (value : List Char) :
    ((cleanedName nfkd value).take maxFilenameBytes).getLast? = some '.' ↔
      (cleanedName nfkd value)[254]? = some '.' := by
  rw [List.getLast?_take, if_neg (by decide)]
  show ((cleanedName nfkd value)[254]?.or _) = some '.' ↔ _
  cases hat : (cleanedName nfkd value)[254]? with
  | none => simpa using cleanedName_last nfkd value
  | some c => simp

/-- The name stored is safe and stays the same when it is cleaned once more, unless the
name given is one to cut at a dot. -/
theorem download_name_stable (hnfkd : FixesAscii nfkd)
    (h : safeDownloadFilename nfkd value = some name) :
    (SafeName name ∧ safeDownloadFilename nfkd name = some name) ↔
      ¬CutAtDot (asciiOnly (nfkd value)) := by
  obtain ⟨hopening, hlength⟩ := safeDownloadFilename_opening h
  have hcut : name.getLast? = some '.' ↔ CutAtDot (asciiOnly (nfkd value)) := by
    rw [safeDownloadFilename_eq h, ← cleanedName_dot_iff]
    exact getLast?_cut nfkd value
  constructor
  · intro hsafe hdot
    exact hsafe.1.last (hcut.mpr hdot)
  · intro hdot
    have hlast : name.getLast? ≠ some '.' := fun hl => hdot (hcut.mp hl)
    refine ⟨hopening.safe hlength hlast, ?_⟩
    rw [safeDownloadFilename_of_opening hnfkd hopening hlength, Option.some.injEq,
      rdropWhile_fixed_iff]
    intro c hc
    refine beq_eq_false_iff_ne.mpr ?_
    rintro rfl
    exact hlast hc

/-- U+33C2 decomposes into four characters; no other character changes. -/
def smallNfkd (text : List Char) : List Char :=
  text.flatMap fun c => if c = '㏂' then "a.m.".toList else [c]

theorem smallNfkd_ascii : FixesAscii smallNfkd := by
  intro text h
  induction text with
  | nil => rfl
  | cons c text ih =>
    have hc : c ≠ '㏂' := by
      rintro rfl
      exact absurd (h '㏂' List.mem_cons_self) (by decide)
    have hrest := ih fun d hd => h d (List.mem_cons_of_mem c hd)
    rw [smallNfkd] at hrest ⊢
    rw [List.flatMap_cons, if_neg hc, hrest]
    rfl

/-- 253 bytes that decompose into 337 characters. -/
def smallName : List Char := 'x' :: List.replicate 84 '㏂'

theorem download_name_changes : ∃ name, safeDownloadFilename smallNfkd smallName = some name ∧
    name.getLast? = some '.' ∧ safeDownloadFilename smallNfkd name ≠ some name := by
  refine ⟨(cleanedName smallNfkd smallName).take maxFilenameBytes, ?_, ?_, ?_⟩ <;> decide +kernel

/-- A name that is cut, though not at a dot. -/
def squareName : List Char := "..-x".toList ++ List.replicate 83 '㏂'

theorem download_name_stable_squares : ∃ name,
    safeDownloadFilename smallNfkd squareName = some name ∧ name.length = 255 ∧ SafeName name ∧
      safeDownloadFilename smallNfkd name = some name := by
  have h : safeDownloadFilename smallNfkd squareName =
      some ((cleanedName smallNfkd squareName).take maxFilenameBytes) := by
    decide +kernel
  have hdot : ¬CutAtDot (asciiOnly (smallNfkd squareName)) := by
    rw [← cleanedName_dot_iff]
    decide +kernel
  exact ⟨_, h, by decide +kernel, (download_name_stable smallNfkd_ascii h).mpr hdot⟩

/-! ## The header -/

theorem hexDigits_getD (n : Nat) : isEncodedChar (hexDigits.getD n '0') = true := by
  by_cases h : n < 16
  · interval_cases n <;> decide
  · have hlength : hexDigits.length ≤ n := by
      show 16 ≤ n
      omega
    rw [List.getD_eq_getElem?_getD, List.getElem?_eq_none hlength]
    decide

theorem mem_quoteByte {byte : UInt8} {c : Char} (h : c ∈ quoteByte byte) :
    isEncodedChar c = true := by
  rw [quoteByte] at h
  split at h
  · next hplain =>
    rw [List.mem_singleton.mp h]
    have hunreserved := (Bool.and_eq_true_iff.mp hplain).1
    simp only [isUnreserved, isEncodedChar, Bool.or_eq_true, List.contains_iff_mem,
      List.mem_cons] at hunreserved ⊢
    tauto
  · rcases List.mem_cons.mp h with rfl | h
    · decide
    · rcases List.mem_cons.mp h with rfl | h
      · exact hexDigits_getD _
      · rw [List.mem_singleton.mp h]
        exact hexDigits_getD _

theorem length_quoteByte (byte : UInt8) :
    1 ≤ (quoteByte byte).length ∧ (quoteByte byte).length ≤ 3 := by
  rw [quoteByte]
  split <;> simp

theorem mem_quote {text : List Char} {c : Char} (h : c ∈ quote text) : isEncodedChar c = true := by
  obtain ⟨byte, -, hc⟩ := List.mem_flatMap.mp h
  exact mem_quoteByte hc

theorem length_quote (text : List Char) :
    (encodeUtf8 text).length ≤ (quote text).length ∧
      (quote text).length ≤ 3 * (encodeUtf8 text).length := by
  rw [quote]
  induction encodeUtf8 text with
  | nil => exact ⟨Nat.le_refl 0, Nat.le_refl 0⟩
  | cons byte bytes ih =>
    have hbyte := length_quoteByte byte
    rw [List.flatMap_cons, List.length_append, List.length_cons]
    omega

theorem length_encodeUtf8 (text : List Char) :
    text.length ≤ (encodeUtf8 text).length ∧ (encodeUtf8 text).length ≤ 4 * text.length := by
  induction text with
  | nil => exact ⟨Nat.le_refl 0, Nat.le_refl 0⟩
  | cons c text ih =>
    have hmin := c.utf8Size_pos
    have hmax := c.utf8Size_le_four
    rw [encodeUtf8] at ih ⊢
    rw [List.flatMap_cons, List.length_append, String.length_utf8EncodeChar, List.length_cons]
    omega

/-- A header of a safe file name passes by its two lengths. -/
theorem matchesDisposition_iff {filename encoded : List Char}
    (hname : ∀ c ∈ filename, isFilenameChar c = true) (hencoded : ∀ c ∈ encoded, isEncodedChar c = true) :
    matchesDisposition (disposition filename encoded) = true ↔
      (1 ≤ filename.length ∧ filename.length ≤ 128) ∧
        (1 ≤ encoded.length ∧ encoded.length ≤ 1024) := by
  have hhead : disposition filename encoded =
      dispositionHead ++ (filename ++ (dispositionMiddle ++ encoded)) := by
    simp only [disposition, List.append_assoc]
  have hprefix : dispositionHead.isPrefixOf (disposition filename encoded) = true := by
    rw [hhead, List.isPrefixOf_iff_prefix]
    exact List.prefix_append _ _
  have hrest : (disposition filename encoded).drop dispositionHead.length =
      filename ++ (dispositionMiddle ++ encoded) := by
    rw [hhead, List.drop_left]
  have htake : (filename ++ (dispositionMiddle ++ encoded)).takeWhile isFilenameChar = filename := by
    rw [List.takeWhile_append_of_pos hname]
    exact List.append_nil filename
  have hmiddle : dispositionMiddle.isPrefixOf (dispositionMiddle ++ encoded) = true :=
    List.isPrefixOf_iff_prefix.mpr (List.prefix_append _ _)
  have hall : encoded.all isEncodedChar = true := List.all_eq_true.mpr hencoded
  rw [matchesDisposition, hprefix]
  simp only [hrest, htake, List.drop_left, hmiddle, hall, Bool.true_and, Bool.and_true,
    Bool.and_eq_true, decide_eq_true_eq]

theorem forwarded_disposition {filename encoded : List Char} :
    forwarded (disposition filename encoded) = some (disposition filename encoded) ↔
      matchesDisposition (disposition filename encoded) = true := by
  have hne : (disposition filename encoded).isEmpty = false := by
    have hhead : dispositionHead ≠ [] := by decide
    rw [List.isEmpty_eq_false_iff, disposition]
    simp only [ne_eq, List.append_eq_nil_iff, hhead, false_and, not_false_eq_true]
  generalize disposition filename encoded = header at hne
  rw [forwarded, hne, Bool.not_false, Bool.true_and]
  constructor
  · intro h
    by_contra hmatch
    rw [if_neg hmatch] at h
    cases h
  · intro h
    rw [if_pos h]

/-- The header of a stored name. -/
theorem contentDisposition_forwarded (hnfkd : FixesAscii nfkd) (h : Opening name)
    (hlength : name.length ≤ maxFilenameBytes) :
    (∃ header, contentDisposition nfkd name = some header ∧ forwarded header = some header) ↔
      (name.rdropWhile isDot).length ≤ 128 := by
  have hsafe := safeDownloadFilename_of_opening hnfkd h hlength
  have hopening := h.rdropWhile
  have hpos : 1 ≤ (name.rdropWhile isDot).length := List.length_pos_of_ne_nil hopening.nonempty
  have hbytes := length_encodeUtf8_ascii fun c hc => isFilenameChar_lt (hopening.chars c hc)
  have hquote := length_quote (name.rdropWhile isDot)
  rw [contentDisposition, hsafe, Option.map_some]
  simp only [Option.some.injEq, exists_eq_left']
  rw [forwarded_disposition, matchesDisposition_iff hopening.chars fun c => mem_quote]
  omega

/-! ## Exports -/

theorem length_exportStem (unicode : Unicode) (text : List Char) :
    1 ≤ (exportStem unicode text).length ∧ (exportStem unicode text).length ≤ 80 := by
  rw [exportStem]
  simp only [List.length_take]
  split
  · decide
  · next hne =>
    have : 0 < (strip isDashOrDot ((Words.join '-' (Words.words isSpace (unicode.nfkc text))).filter
        fun c => !(droppedCharacters.contains c) && !unicode.isControlOrFormat c)).length :=
      List.length_pos_of_ne_nil fun h => hne (List.isEmpty_iff.mpr h)
    omega

theorem mem_exportSuffix {versionNumber : Nat} {format : CorpusFileFormat} {c : Char}
    (h : c ∈ exportSuffix versionNumber format) : isFilenameChar c = true := by
  have hformat : ∀ d ∈ '.' :: format.value.toList, isFilenameChar d = true := by
    cases format <;> simp [CorpusFileFormat.value] <;> decide
  rcases List.mem_append.mp h with h | h
  · rcases List.mem_append.mp h with h | h
    · simp only [List.mem_cons, List.not_mem_nil, or_false, String.reduceToList] at h
      rcases h with rfl | rfl <;> decide
    · have hdigit := Nat.isDigit_of_mem_toDigits (by decide) (by decide) h
      simp [isFilenameChar, Char.isAlphanum, hdigit]
  · exact hformat c h

theorem length_exportSuffix {versionNumber : Nat} (format : CorpusFileFormat)
    (h : versionNumber < 2 ^ 31) : (exportSuffix versionNumber format).length ≤ 17 := by
  have hdigits : (Nat.toDigits 10 versionNumber).length ≤ 10 :=
    (Nat.length_toDigits_le_iff (by decide) (by decide)).mpr (by omega)
  have hformat : format.value.toList.length ≤ 4 := by
    cases format <;> decide
  rw [exportSuffix, List.length_append, List.length_append, List.length_cons]
  have : "-v".toList.length = 2 := rfl
  omega

theorem exportFilename_chars {unicode : Unicode} {text : List Char} {versionNumber : Nat}
    {format : CorpusFileFormat} :
    ∀ c ∈ exportFilename unicode text versionNumber format, isFilenameChar c = true := by
  intro c h
  rw [exportFilename] at h
  rcases List.mem_append.mp h with h | h
  · have h := List.mem_of_mem_take h
    split at h
    · have hcorpus : ∀ d ∈ "corpus".toList, isFilenameChar d = true := by
        simp
        decide
      exact hcorpus c h
    · exact mem_replaceUnsafe (mem_strip h)
  · exact mem_exportSuffix h

theorem length_exportFilename (unicode : Unicode) (text : List Char) {versionNumber : Nat}
    (format : CorpusFileFormat) (h : versionNumber < 2 ^ 31) :
    1 ≤ (exportFilename unicode text versionNumber format).length ∧
      (exportFilename unicode text versionNumber format).length ≤ 77 := by
  have hsuffix := length_exportSuffix format h
  have hpos : 1 ≤ (exportSuffix versionNumber format).length := by
    simp [exportSuffix]
  rw [exportFilename, List.length_append, List.length_take]
  omega

theorem exportDisposition_forwarded (unicode : Unicode) (text : List Char) {versionNumber : Nat}
    (format : CorpusFileFormat) (h : versionNumber < 2 ^ 31) :
    forwarded (exportDisposition unicode text versionNumber format) =
      some (exportDisposition unicode text versionNumber format) := by
  have hfilename := length_exportFilename unicode text format h
  have hsuffix := length_exportSuffix format h
  have hstem := length_exportStem unicode text
  have hquote := length_quote (exportStem unicode text ++ exportSuffix versionNumber format)
  have hbytes := length_encodeUtf8 (exportStem unicode text)
  have hascii : (encodeUtf8 (exportSuffix versionNumber format)).length =
      (exportSuffix versionNumber format).length :=
    length_encodeUtf8_ascii fun c hc => isFilenameChar_lt (mem_exportSuffix hc)
  have happend : (encodeUtf8 (exportStem unicode text ++ exportSuffix versionNumber format)).length =
      (encodeUtf8 (exportStem unicode text)).length +
        (encodeUtf8 (exportSuffix versionNumber format)).length := by
    rw [encodeUtf8, List.flatMap_append, List.length_append]
    rfl
  have hpos := (length_encodeUtf8 (exportStem unicode text)).1
  rw [exportDisposition, forwarded_disposition,
    matchesDisposition_iff exportFilename_chars fun c => mem_quote]
  omega

/-- The proxy passes the header of a stored artifact exactly when its name, without
trailing dots, has at most 128 characters; it passes the header of every export. -/
theorem disposition_forwarded (hnfkd : FixesAscii nfkd)
    (h : safeDownloadFilename nfkd value = some name) :
    ((∃ header, contentDisposition nfkd name = some header ∧ forwarded header = some header) ↔
      (name.rdropWhile isDot).length ≤ 128) ∧
    ∀ (unicode : Unicode) (corpusName : List Char) (versionNumber : Nat) (format : CorpusFileFormat),
      versionNumber < 2 ^ 31 →
      forwarded (exportDisposition unicode corpusName versionNumber format) =
        some (exportDisposition unicode corpusName versionNumber format) := by
  obtain ⟨hopening, hlength⟩ := safeDownloadFilename_opening h
  exact ⟨contentDisposition_forwarded hnfkd hopening hlength,
    fun unicode corpusName versionNumber format hversion =>
      exportDisposition_forwarded unicode corpusName format hversion⟩

def longName : List Char := List.replicate 129 'a'

theorem disposition_dropped : ∃ name header, safeDownloadFilename smallNfkd longName = some name ∧
    contentDisposition smallNfkd name = some header ∧ forwarded header = none := by
  refine ⟨longName, disposition longName (quote longName), ?_, ?_, ?_⟩ <;> decide +kernel

def smallUnicode : Unicode where
  nfkc := id
  nfkd := smallNfkd
  isControlOrFormat := isControl

theorem disposition_forwarded_report :
    ((∃ header, contentDisposition smallNfkd "report".toList = some header ∧
      forwarded header = some header) ↔ ("report".toList.rdropWhile isDot).length ≤ 128) ∧
    forwarded (exportDisposition smallUnicode "My corpus".toList 3 .csv) =
      some (exportDisposition smallUnicode "My corpus".toList 3 .csv) := by
  have h : safeDownloadFilename smallNfkd "report.".toList = some "report".toList := by decide
  obtain ⟨hartifact, hexport⟩ := disposition_forwarded smallNfkd_ascii h
  exact ⟨hartifact, hexport smallUnicode "My corpus".toList 3 .csv (by decide)⟩

end CorpusKit.Filenames
