import CorpusKit.Domain.Artifacts
import CorpusKit.Library.Paging
import Mathlib.Data.List.Infix
import Mathlib.Data.String.Basic

/-! # Object keys and their listing

The checks every adapter makes on keys and listings, and the listing itself:
the stored keys of a namespace beyond a cursor, in code-point order, up to a
limit. The S3 adapter assembles the same listing from the service's pages. -/

namespace CorpusKit

namespace ObjectStore

/-! ## Keys -/

def isLowerAlnum (c : Char) : Bool :=
  decide (97 ≤ c.toNat ∧ c.toNat ≤ 122) || decide (48 ≤ c.toNat ∧ c.toNat ≤ 57)

def isKeyChar (c : Char) : Bool := isLowerAlnum c || c == '/' || c == '_' || c == '-'

/-- `_SAFE_KEY`: a lowercase letter or digit, then at most 511 safe characters. -/
def isSafeKey : List Char → Bool
  | [] => false
  | c :: rest => isLowerAlnum c && decide (rest.length ≤ 511) && rest.all isKeyChar

/-- `"//" in key`. -/
def hasDoubleSlash : List Char → Bool
  | c :: d :: rest => (c == '/' && d == '/') || hasDoubleSlash (d :: rest)
  | _ => false

/-- `_validate_key`. -/
def validKey (key : String) : Bool :=
  isSafeKey key.toList && !hasDoubleSlash key.toList &&
    !decide (['/', '.', '.', '/'] <:+: '/' :: key.toList ++ ['/'])

/-- The namespace reconciliation lists. -/
def artifactNamespace : String := "artifacts/v1"

def startsWith (key base : String) : Bool := base.toList.isPrefixOf key.toList

/-- `_validate_listing` of the artifact namespace, which itself is a valid one. -/
def validListing (limit : Nat) (after : Option String) : Bool :=
  decide (1 ≤ limit ∧ limit ≤ 10000) &&
    after.all fun cursor => validKey cursor && startsWith cursor artifactNamespace

/-! ## Listing -/

/-- `list_keys` of the artifact namespace. -/
def listKeys (stored : List String) (limit : Nat) (after : Option String) : List String :=
  ((stored.filter fun key => startsWith key artifactNamespace &&
    after.all fun cursor => decide (cursor < key)).insertionSort (· ≤ ·)).take limit

/-! ## The keys artifacts are stored under -/

theorem isKeyChar_of_isLowerAlnum {c : Char} (h : isLowerAlnum c = true) : isKeyChar c = true := by
  unfold isKeyChar
  rw [h]
  rfl

theorem isLowerAlnum_hexDigit {d : Nat} (h : d < 16) : isLowerAlnum (hexDigit d) = true := by
  have hall : ∀ d : Fin 16, isLowerAlnum (hexDigit d.val) = true := by decide
  exact hall ⟨d, h⟩

/-- A path segment: safe characters other than a slash, and at least one. -/
structure Segment (s : List Char) : Prop where
  nonempty : s ≠ []
  safe : ∀ c ∈ s, isKeyChar c = true
  whole : '/' ∉ s

theorem segment_hex {count n : Nat} (h : 0 < count) : Segment (hexDigits count n) where
  nonempty hnil := by
    have := hexDigits_length count n
    rw [hnil, List.length_nil] at this
    omega
  safe c hc := by
    obtain ⟨d, hd, rfl⟩ := hexDigits_mem hc
    exact isKeyChar_of_isLowerAlnum (isLowerAlnum_hexDigit hd)
  whole hc := by
    obtain ⟨d, hd, hslash⟩ := hexDigits_mem hc
    have := isLowerAlnum_hexDigit hd
    rw [← hslash] at this
    revert this
    decide

theorem segment_take {s : List Char} {n : Nat} (h : Segment s) (hn : 0 < n) : Segment (s.take n) where
  nonempty hnil := by
    obtain hzero | hempty := List.take_eq_nil_iff.mp hnil
    · omega
    · exact h.nonempty hempty
  safe c hc := h.safe c (List.mem_of_mem_take hc)
  whole hc := h.whole (List.mem_of_mem_take hc)

theorem segment_kind (kind : ArtifactKind) : Segment kind.value.toList := by
  cases kind <;> exact ⟨by simp [ArtifactKind.value],
    by simp [ArtifactKind.value, isKeyChar, isLowerAlnum], by simp [ArtifactKind.value]⟩

theorem path_safe {segments : List (List Char)} (h : ∀ s ∈ segments, Segment s) :
    ∀ c ∈ path segments, isKeyChar c = true := by
  induction segments with
  | nil => intro c hc; cases hc
  | cons s segments ih =>
    cases segments with
    | nil => exact (h s (List.mem_singleton.mpr rfl)).safe
    | cons t rest =>
      intro c hc
      rcases List.mem_append.mp hc with hs | hrest
      · exact (h s List.mem_cons_self).safe c hs
      · rcases List.mem_cons.mp hrest with rfl | hrest
        · rfl
        · exact ih (fun u hu => h u (List.mem_cons_of_mem s hu)) c hrest

theorem hasDoubleSlash_append {s r : List Char} (h : '/' ∉ s) :
    hasDoubleSlash (s ++ r) = hasDoubleSlash r := by
  induction s with
  | nil => rfl
  | cons c s ih =>
    have hc : (c == '/') = false := by
      rw [beq_eq_false_iff_ne]
      rintro rfl
      exact h List.mem_cons_self
    have htail := ih fun hs => h (List.mem_cons_of_mem c hs)
    cases hr : s ++ r with
    | nil =>
      rw [List.append_eq_nil_iff] at hr
      rw [hr.1, hr.2]
      rfl
    | cons d rest =>
      rw [List.cons_append, hr, hasDoubleSlash, hc, Bool.false_and, Bool.false_or, ← hr, htail]

theorem hasDoubleSlash_path {segments : List (List Char)} (h : ∀ s ∈ segments, Segment s) :
    hasDoubleSlash (path segments) = false := by
  induction segments with
  | nil => rfl
  | cons s segments ih =>
    have hs := h s List.mem_cons_self
    have htail := ih fun u hu => h u (List.mem_cons_of_mem s hu)
    cases segments with
    | nil =>
      have := hasDoubleSlash_append (r := []) hs.whole
      rw [List.append_nil] at this
      exact this
    | cons t rest =>
      rw [path, hasDoubleSlash_append hs.whole]
      have ht := h t (List.mem_cons_of_mem s List.mem_cons_self)
      obtain ⟨c, r, hpath⟩ : ∃ c r, path (t :: rest) = c :: r ∧ c ≠ '/' := by
        cases t with
        | nil => exact absurd rfl ht.nonempty
        | cons c t' =>
          have hc : c ≠ '/' := fun heq => ht.whole (heq ▸ List.mem_cons_self)
          cases rest with
          | nil => exact ⟨c, t', rfl, hc⟩
          | cons u rest => exact ⟨c, t' ++ '/' :: path (u :: rest), rfl, hc⟩
      have hc : (c == '/') = false := beq_eq_false_iff_ne.mpr hpath.2
      rw [hpath.1] at htail ⊢
      rw [hasDoubleSlash, hc, Bool.and_false, Bool.false_or, htail]

theorem isKeyChar_dot : isKeyChar '.' = false := by decide

/-- A safe key has no dot, so no segment of it is a parent directory. -/
theorem no_parent {key : List Char} (h : ∀ c ∈ key, isKeyChar c = true) :
    ¬ ['/', '.', '.', '/'] <:+: '/' :: key ++ ['/'] := by
  intro hinside
  have hdot : '.' ∈ '/' :: key ++ ['/'] := hinside.subset (by decide)
  rcases List.mem_append.mp hdot with hkey | hlast
  · rcases List.mem_cons.mp hkey with hslash | hkey
    · exact absurd hslash (by decide)
    · have := h _ hkey
      rw [isKeyChar_dot] at this
      cases this
  · exact absurd (List.mem_singleton.mp hlast) (by decide)

theorem segment_project : Segment "project".toList := ⟨by simp, by simp [isKeyChar, isLowerAlnum], by simp⟩

theorem segment_scope (runId : Option Uuid) : Segment (scopeChars runId) := by
  cases runId with
  | some run => exact segment_hex (by decide)
  | none => exact segment_project

theorem scopeChars_length (runId : Option Uuid) : (scopeChars runId).length ≤ 32 := by
  cases runId with
  | some run =>
    have : (scopeChars (some run)).length = 32 := hexDigits_length 32 run
    omega
  | none => decide

theorem segment_artifacts : Segment "artifacts".toList := ⟨by simp, by simp [isKeyChar, isLowerAlnum], by simp⟩

theorem segment_v1 : Segment "v1".toList := ⟨by simp, by simp [isKeyChar, isLowerAlnum], by simp⟩

theorem segment_storageKey {key : StorageKey} (h : key.isArtifact = true) :
    ∀ s ∈ key.segments, Segment s := by
  cases key with
  | staged sha256 => cases h
  | artifact org project runId kind sha256 =>
    intro s hs
    have hhex : Segment (sha256Hex sha256) := segment_hex (by decide)
    unfold StorageKey.segments at hs
    simp only [List.mem_cons, List.not_mem_nil, or_false] at hs
    rcases hs with h | h | h | h | h | h | h | h
    · exact h ▸ segment_artifacts
    · exact h ▸ segment_v1
    · exact h ▸ segment_hex (by decide)
    · exact h ▸ segment_hex (by decide)
    · exact h ▸ segment_scope runId
    · exact h ▸ segment_kind kind
    · exact h ▸ segment_take hhex (by decide)
    · exact h ▸ hhex

theorem kind_length (kind : ArtifactKind) : kind.value.toList.length ≤ 17 := by
  cases kind <;> decide

theorem render_toList (key : StorageKey) : key.render.toList = path key.segments :=
  String.toList_ofList

theorem artifact_length {key : StorageKey} (h : key.isArtifact = true) :
    (path key.segments).length ≤ 512 := by
  cases key with
  | staged sha256 => cases h
  | artifact org project runId kind sha256 =>
    have h1 : (uuidHex org).length = 32 := hexDigits_length 32 org
    have h2 : (uuidHex project).length = 32 := hexDigits_length 32 project
    have h3 := scopeChars_length runId
    have h4 := kind_length kind
    have h5 : (sha256Hex sha256).length = 64 := hexDigits_length 64 _
    have h6 : ((sha256Hex sha256).take 2).length ≤ 2 := by rw [List.length_take]; omega
    have h7 : "artifacts".toList.length = 9 := rfl
    have h8 : "v1".toList.length = 2 := rfl
    simp only [StorageKey.segments, path, List.length_append, List.length_cons, h1, h2, h5, h7, h8]
    omega

theorem artifact_head {key : StorageKey} (h : key.isArtifact = true) :
    ∃ rest, path key.segments = 'a' :: rest := by
  cases key with
  | staged sha256 => cases h
  | artifact org project runId kind sha256 => exact ⟨_, rfl⟩

/-- Every key an artifact is stored under passes the adapters' own check. -/
theorem validKey_artifact {key : StorageKey} (h : key.isArtifact = true) :
    validKey key.render = true := by
  have hseg := segment_storageKey h
  have hsafe := path_safe hseg
  have hlen := artifact_length h
  have hkey : isSafeKey (path key.segments) = true := by
    obtain ⟨rest, hpath⟩ := artifact_head h
    rw [hpath] at hsafe hlen ⊢
    rw [List.length_cons] at hlen
    simp only [isSafeKey, Bool.and_eq_true, decide_eq_true_eq, List.all_eq_true]
    exact ⟨⟨by decide, by omega⟩, fun d hd => hsafe d (List.mem_cons_of_mem 'a' hd)⟩
  simp only [validKey, render_toList, Bool.and_eq_true, Bool.not_eq_true', decide_eq_false_iff_not]
  exact ⟨⟨hkey, hasDoubleSlash_path hseg⟩, no_parent hsafe⟩

theorem startsWith_artifact {key : StorageKey} (h : key.isArtifact = true) :
    startsWith key.render artifactNamespace = true := by
  cases key with
  | staged sha256 => cases h
  | artifact org project runId kind sha256 =>
    rw [startsWith, render_toList, List.isPrefixOf_iff_prefix]
    exact ⟨_, rfl⟩

end ObjectStore

end CorpusKit
