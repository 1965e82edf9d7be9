import CorpusKit.Properties.Replays
import CorpusKit.Services.Reproducibility
import Mathlib.Data.Multiset.Filter

/-! # Output digests of a run and its replay

A digest is named by its place among the outputs of its kind in the order of
their identifiers, which are random. The digests of two runs agree exactly when
that order puts the same contents in the same places. -/

namespace CorpusKit.RunManifestService

open Manifests Documents

/-- What a digest keeps of an output artifact. -/
structure Content where
  kind : ArtifactKind
  sha256 : Sha256
  sizeBytes : Nat
  deriving DecidableEq, Repr

def content (artifact : Artifact) : Content := ⟨artifact.kind, artifact.sha256, artifact.sizeBytes⟩

/-- A succeeded run as `finalize` reads it. -/
structure Succeeded where
  db : Db
  runId : Uuid
  run : Run
  resultSummary : Option Dictionary

variable {s t : Succeeded} {sha256 : List Char → Sha256}

def Succeeded.rows (s : Succeeded) : List (Uuid × Artifact) := outputArtifacts s.db s.runId s.run

/-- Kind, digest and size of every active output artifact. -/
def Succeeded.contents (s : Succeeded) : Multiset Content :=
  Multiset.ofList (s.rows.map fun row => content row.2)

/-- The outputs of one kind in the order of their identifiers. -/
def Succeeded.byId (s : Succeeded) (kind : ArtifactKind) : List Content :=
  ((s.rows.filter fun row => row.2.kind == kind).insertionSort fun a b => a.1 ≤ b.1).map
    fun row => content row.2

def Succeeded.digests (sha256 : List Char → Sha256) (s : Succeeded) :
    Except Error (List ContentDigest) :=
  (authoritativeOutputs sha256 s.rows s.resultSummary).map Prod.fst

/-- The canonical text of the result summary, when it has one. -/
def Succeeded.summaryText (s : Succeeded) : Option (List Char) := do
  let summary ← s.resultSummary
  let normalized ← (normalizeResultSummary summary).toOption
  pure (canonicalJson normalized.value)

/-! ## Numbered digests -/

def numberedDigest (e : Content × Nat) : ContentDigest :=
  ⟨outputName e.1.kind e.2, e.1.sha256, e.1.sizeBytes⟩

theorem outputDigests_eq (rows : List (Uuid × Artifact)) :
    outputDigests rows = ((rows.map fun row => content row.2).zipIdx 1).map numberedDigest := by
  rw [List.zipIdx_map, List.map_map]
  rfl

theorem kindValue_injective {k k' : ArtifactKind} (h : k.value.toList = k'.value.toList) :
    k = k' := by
  revert h
  cases k <;> cases k' <;> decide

theorem outputName_injective {k k' : ArtifactKind} {n : Nat} (h : outputName k n = outputName k' n) :
    k = k' := by
  unfold outputName at h
  have hkind := List.append_cancel_right h
  exact kindValue_injective (List.append_cancel_left hkind)

theorem numberedDigest_injective {c c' : Content} {n : Nat}
    (h : numberedDigest (c, n) = numberedDigest (c', n)) : c = c' := by
  obtain ⟨kind, sha256, sizeBytes⟩ := c
  obtain ⟨kind', sha256', sizeBytes'⟩ := c'
  rw [numberedDigest, numberedDigest, ContentDigest.mk.injEq] at h
  obtain ⟨hname, hsha, hsize⟩ := h
  rw [Content.mk.injEq]
  exact ⟨outputName_injective hname, hsha, hsize⟩

theorem numbered_injective {xs ys : List Content} {n : Nat}
    (h : (xs.zipIdx n).map numberedDigest = (ys.zipIdx n).map numberedDigest) : xs = ys := by
  induction xs generalizing ys n with
  | nil =>
    cases ys with
    | nil => rfl
    | cons y ys => cases h
  | cons x xs ih =>
    cases ys with
    | nil => cases h
    | cons y ys =>
      rw [List.zipIdx_cons, List.zipIdx_cons, List.map_cons, List.map_cons, List.cons.injEq] at h
      rw [numberedDigest_injective h.1, ih h.2]

theorem outputDigests_inj {rows rows' : List (Uuid × Artifact)} :
    outputDigests rows = outputDigests rows' ↔
      (rows.map fun row => content row.2) = rows'.map fun row => content row.2 := by
  rw [outputDigests_eq, outputDigests_eq]
  exact ⟨numbered_injective, fun h => by rw [h]⟩

/-! ## Rows in order -/

theorem value_injective {k k' : ArtifactKind} (h : k.value = k'.value) : k = k' :=
  kindValue_injective (congrArg String.toList h)

theorem outputArtifacts_pairwise (db : Db) (runId : Uuid) (run : Run) :
    (outputArtifacts db runId run).Pairwise fun a b =>
      a.2.kind.value < b.2.kind.value ∨ a.2.kind = b.2.kind ∧ a.1 ≤ b.1 := by
  have htotal : Std.Total fun a b : Uuid × Artifact =>
      a.2.kind.value < b.2.kind.value ∨ a.2.kind = b.2.kind ∧ a.1 ≤ b.1 := by
    refine ⟨fun a b => ?_⟩
    rcases lt_trichotomy a.2.kind.value b.2.kind.value with h | h | h
    · exact .inl (.inl h)
    · rcases le_total a.1 b.1 with hid | hid
      · exact .inl (.inr ⟨value_injective h, hid⟩)
      · exact .inr (.inr ⟨(value_injective h).symm, hid⟩)
    · exact .inr (.inl h)
  have htrans : IsTrans (Uuid × Artifact) fun a b =>
      a.2.kind.value < b.2.kind.value ∨ a.2.kind = b.2.kind ∧ a.1 ≤ b.1 := by
    refine ⟨fun a b c hab hbc => ?_⟩
    rcases hab with hab | ⟨hab, hid⟩
    · rcases hbc with hbc | ⟨hbc, -⟩
      · exact .inl (lt_trans hab hbc)
      · exact .inl (hbc ▸ hab)
    · rcases hbc with hbc | ⟨hbc, hid'⟩
      · exact .inl (hab ▸ hbc)
      · exact .inr ⟨hab.trans hbc, le_trans hid hid'⟩
  exact List.pairwise_insertionSort _ _

/-- Each kind is already listed by identifier. -/
theorem Succeeded.byId_eq (s : Succeeded) (kind : ArtifactKind) :
    s.byId kind = (s.rows.map fun row => content row.2).filter fun c => c.kind == kind := by
  have hids : (s.rows.filter fun row => row.2.kind == kind).Pairwise fun a b => a.1 ≤ b.1 := by
    refine ((outputArtifacts_pairwise s.db s.runId s.run).filter _).imp_of_mem ?_
    intro a b ha hb hab
    have hka : a.2.kind = kind := by simpa using (List.mem_filter.mp ha).2
    have hkb : b.2.kind = kind := by simpa using (List.mem_filter.mp hb).2
    rcases hab with hlt | ⟨-, hid⟩
    · rw [hka, hkb] at hlt
      exact absurd hlt (lt_irrefl _)
    · exact hid
  rw [Succeeded.byId, hids.insertionSort_eq, List.filter_map]
  rfl

/-- Two lists in the order of their kinds are equal when they are kind by kind. -/
theorem eq_of_filter_eq {xs ys : List Content}
    (hxs : xs.Pairwise fun a b => a.kind.value ≤ b.kind.value)
    (hys : ys.Pairwise fun a b => a.kind.value ≤ b.kind.value)
    (h : ∀ kind : ArtifactKind,
      (xs.filter fun c => c.kind == kind) = ys.filter fun c => c.kind == kind) :
    xs = ys := by
  have hmem {c : Content} : c ∈ xs ↔ c ∈ ys := by
    have hc := congrArg (c ∈ ·) (h c.kind)
    simpa using hc
  induction xs generalizing ys with
  | nil =>
    cases ys with
    | nil => rfl
    | cons y ys => exact absurd (hmem.mpr List.mem_cons_self) List.not_mem_nil
  | cons x xs ih =>
    cases ys with
    | nil => exact absurd (hmem.mp List.mem_cons_self) List.not_mem_nil
    | cons y ys =>
      have hle {a b : Content} {l : List Content} (hb : b ∈ a :: l)
          (hl : (a :: l).Pairwise fun a b => a.kind.value ≤ b.kind.value) :
          a.kind.value ≤ b.kind.value := by
        rcases List.mem_cons.mp hb with rfl | hb
        · exact le_refl _
        · exact (List.pairwise_cons.mp hl).1 b hb
      have hkind : x.kind = y.kind := value_injective (le_antisymm
        (hle (hmem.mpr List.mem_cons_self) hxs) (hle (hmem.mp List.mem_cons_self) hys))
      have hhead := h x.kind
      rw [List.filter_cons_of_pos (by simp), List.filter_cons_of_pos (by simp [hkind]),
        List.cons.injEq] at hhead
      obtain ⟨rfl, -⟩ := hhead
      have htail (kind : ArtifactKind) :
          (xs.filter fun c => c.kind == kind) = ys.filter fun c => c.kind == kind := by
        have hcons := h kind
        by_cases hx : x.kind = kind
        · rw [List.filter_cons_of_pos (by simp [hx]), List.filter_cons_of_pos (by simp [hx]),
            List.cons.injEq] at hcons
          exact hcons.2
        · rwa [List.filter_cons_of_neg (by simp [hx]), List.filter_cons_of_neg (by simp [hx])]
            at hcons
      rw [ih (List.pairwise_cons.mp hxs).2 (List.pairwise_cons.mp hys).2 htail]
      intro c
      have hc := congrArg (c ∈ ·) (htail c.kind)
      simpa using hc

theorem Succeeded.rows_pairwise (s : Succeeded) :
    (s.rows.map fun row => content row.2).Pairwise fun a b => a.kind.value ≤ b.kind.value := by
  refine List.pairwise_map.mpr ((outputArtifacts_pairwise s.db s.runId s.run).imp ?_)
  rintro a b (hlt | ⟨hkind, -⟩)
  · exact le_of_lt hlt
  · exact le_of_eq (congrArg ArtifactKind.value hkind)

theorem byId_eq_iff :
    (∀ kind, s.byId kind = t.byId kind) ↔
      (s.rows.map fun row => content row.2) = t.rows.map fun row => content row.2 := by
  constructor
  · intro h
    refine eq_of_filter_eq s.rows_pairwise t.rows_pairwise fun kind => ?_
    rw [← s.byId_eq, ← t.byId_eq, h kind]
  · intro h kind
    rw [s.byId_eq, t.byId_eq, h]

/-! ## The digests of two runs -/

theorem checkDigests_ok {digests d : List ContentDigest} (h : checkDigests digests = .ok d) :
    d = digests := by
  unfold checkDigests at h
  split at h
  · exact (Except.ok.inj h).symm
  · cases h

/-- With outputs the digests are theirs. -/
theorem digests_of_rows {d : List ContentDigest} (hrows : s.rows ≠ [])
    (h : s.digests sha256 = .ok d) : d = outputDigests s.rows := by
  have hempty : s.rows.isEmpty = false := by simpa using hrows
  unfold Succeeded.digests authoritativeOutputs at h
  rw [hempty] at h
  simp only [Bool.not_false, if_true] at h
  cases hcheck : checkDigests (outputDigests s.rows) with
  | error e =>
    rw [hcheck] at h
    cases h
  | ok digests =>
    rw [hcheck] at h
    rw [← checkDigests_ok hcheck]
    exact (Except.ok.inj h).symm

/-- Without outputs the only digest is that of the summary. -/
theorem digests_of_summary {d : List ContentDigest} (hrows : s.rows = [])
    (h : s.digests sha256 = .ok d) :
    ∃ text, s.summaryText = some text ∧ d = [summaryDigest sha256 text] := by
  unfold Succeeded.digests authoritativeOutputs at h
  rw [hrows] at h
  simp only [List.isEmpty_nil, Bool.not_true, Bool.false_eq_true, if_false] at h
  rw [Succeeded.summaryText]
  cases hsummary : s.resultSummary with
  | none =>
    rw [hsummary] at h
    cases h
  | some summary =>
    rw [hsummary] at h
    simp only at h
    cases hnormal : normalizeResultSummary summary with
    | error e =>
      rw [hnormal] at h
      cases h
    | ok normalized =>
      rw [hnormal] at h
      simp only at h
      refine ⟨canonicalJson normalized.value, by simp [hnormal, Except.toOption], ?_⟩
      cases hcheck : checkDigests [summaryDigest sha256 (canonicalJson normalized.value)] with
      | error e =>
        rw [hcheck] at h
        cases h
      | ok digests =>
        rw [hcheck] at h
        rw [← checkDigests_ok hcheck]
        exact (Except.ok.inj h).symm

theorem summaryDigest_inj {text text' : List Char} :
    [summaryDigest sha256 text] = [summaryDigest sha256 text'] ↔
      sha256 text = sha256 text' ∧ (utf8 text).size = (utf8 text').size := by
  rw [List.cons.injEq]
  unfold summaryDigest
  rw [ContentDigest.mk.injEq]
  exact ⟨fun h => h.1.2, fun h => ⟨⟨rfl, h⟩, rfl⟩⟩

theorem summaryName_ne_outputName (kind : ArtifactKind) (n : Nat) :
    "result-summary".toList ≠ outputName kind n := by
  intro h
  have hr : "result-summary".toList.head? = some 'r' := rfl
  have ho : (outputName kind n).head? = some 'o' := rfl
  rw [h, ho, Option.some.injEq] at hr
  exact absurd hr (by decide)

theorem outputDigests_ne_summary {rows : List (Uuid × Artifact)} {text : List Char} :
    outputDigests rows ≠ [summaryDigest sha256 text] := by
  intro h
  cases rows with
  | nil => cases h
  | cons row rows =>
    rw [outputDigests, List.zipIdx_cons, List.map_cons, List.cons.injEq] at h
    exact summaryName_ne_outputName _ _ (congrArg ContentDigest.name h.1).symm

/-- The summaries of two runs cannot be told apart by digest and size. -/
def SameSummary (sha256 : List Char → Sha256) (s t : Succeeded) : Prop :=
  ∀ text ∈ s.summaryText, ∀ text' ∈ t.summaryText,
    sha256 text = sha256 text' ∧ (utf8 text).size = (utf8 text').size

theorem byId_of_no_rows (hrows : s.rows = []) (kind : ArtifactKind) : s.byId kind = [] := by
  rw [s.byId_eq, hrows]
  rfl

theorem rows_eq_nil_of_byId (h : ∀ kind, s.byId kind = []) : s.rows = [] := by
  rw [List.eq_nil_iff_forall_not_mem]
  rintro ⟨id, artifact⟩ hrow
  have hmem : content artifact ∈ s.byId artifact.kind := by
    rw [s.byId_eq, List.mem_filter]
    exact ⟨List.mem_map.mpr ⟨_, hrow, rfl⟩, by simp [content]⟩
  rw [h artifact.kind] at hmem
  cases hmem

/-- The digests of two runs agree exactly when their outputs do kind by kind in
the order of their identifiers. -/
theorem digests_eq_iff {d d' : List ContentDigest} (hs : s.digests sha256 = .ok d)
    (ht : t.digests sha256 = .ok d') :
    d = d' ↔ (∀ kind, s.byId kind = t.byId kind) ∧ (s.rows = [] → SameSummary sha256 s t) := by
  by_cases hsrows : s.rows = []
  · obtain ⟨text, htext, rfl⟩ := digests_of_summary hsrows hs
    by_cases htrows : t.rows = []
    · obtain ⟨text', htext', rfl⟩ := digests_of_summary htrows ht
      have hkinds (kind : ArtifactKind) : s.byId kind = t.byId kind := by
        rw [byId_of_no_rows hsrows, byId_of_no_rows htrows]
      rw [summaryDigest_inj]
      simp [SameSummary, htext, htext', hsrows, hkinds]
    · have hd' := digests_of_rows htrows ht
      refine ⟨fun h => absurd (h.trans hd').symm outputDigests_ne_summary, fun h => ?_⟩
      refine absurd (rows_eq_nil_of_byId fun kind => ?_) htrows
      rw [← h.1 kind, byId_of_no_rows hsrows]
  · have hd := digests_of_rows hsrows hs
    by_cases htrows : t.rows = []
    · obtain ⟨text', -, rfl⟩ := digests_of_summary htrows ht
      refine ⟨fun h => absurd (hd.symm.trans h) outputDigests_ne_summary, fun h => ?_⟩
      refine absurd (rows_eq_nil_of_byId fun kind => ?_) hsrows
      rw [h.1 kind, byId_of_no_rows htrows]
    · rw [hd, digests_of_rows htrows ht, outputDigests_inj, ← byId_eq_iff]
      exact ⟨fun h => ⟨h, fun hempty => absurd hempty hsrows⟩, fun h => h.1⟩

/-! ## Runs with given outputs -/

def plainRun : Run where
  organizationId := 0
  projectId := 0
  corpusVersionId := none
  parentRunId := none
  createdBy := 0
  kind := .export
  state := .succeeded
  idempotencyKey := "run"
  attempt := 1
  eventSequence := 4
  spec := ⟨1, .core⟩
  specSha256 := 1
  resultSummary := none
  failureCode := none
  cancellationRequestedAt := none

def outputArtifact (c : Content) : Artifact where
  organizationId := 0
  projectId := 0
  runId := some 0
  createdBy := 0
  scopeKey := some 0
  kind := c.kind
  sha256 := c.sha256
  sizeBytes := c.sizeBytes
  storageKey := artifactStorageKey 0 0 (some 0) c.kind c.sha256
  mediaType := "application/json"
  filename := "output.json"
  state := .active
  retentionUntil := 0
  tombstonedAt := none
  deletedAt := none

/-- The contents under identifiers in the order of the list. -/
def outputTable (contents : List Content) : Table Uuid Artifact where
  entries := contents.zipIdx.map fun e => ⟨e.2, outputArtifact e.1⟩
  nodupKeys := by
    have hkeys : (contents.zipIdx.map fun e =>
        (⟨e.2, outputArtifact e.1⟩ : Sigma fun _ : Uuid => Artifact)).keys =
          contents.zipIdx.map Prod.snd := by
      simp [List.keys, Function.comp_def]
    show List.Nodup _
    rw [hkeys, List.zipIdx_map_snd]
    exact List.nodup_range'

def succeededWith (contents : List Content) : Succeeded where
  db := { artifacts := outputTable contents }
  runId := 0
  run := plainRun
  resultSummary := none

section Given

variable {contents : List Content}

theorem rows_perm (hkinds : ∀ c ∈ contents, isOutputKind c.kind = true) :
    (succeededWith contents).rows.Perm
      (contents.zipIdx.map fun e => (e.2, outputArtifact e.1)) := by
  refine (List.perm_insertionSort _ _).trans ?_
  have hrows : (outputTable contents).rows =
      contents.zipIdx.map fun e => (e.2, outputArtifact e.1) := by
    simp only [Table.rows, outputTable, List.map_map]
    rfl
  show ((outputTable contents).rows.filter _).Perm _
  rw [hrows, List.filter_eq_self.mpr]
  rintro ⟨id, artifact⟩ hrow
  obtain ⟨e, he, heq⟩ := List.mem_map.mp hrow
  obtain ⟨rfl, rfl⟩ := Prod.mk.inj heq
  have hkind := hkinds e.1 (List.fst_mem_of_mem_zipIdx he)
  simp [outputArtifact, plainRun, succeededWith, hkind]

theorem contents_succeededWith (hkinds : ∀ c ∈ contents, isOutputKind c.kind = true) :
    (succeededWith contents).contents = contents := by
  have hperm := (rows_perm hkinds).map fun row => content row.2
  refine (Multiset.coe_eq_coe.mpr hperm).trans ?_
  rw [List.map_map]
  exact congrArg Multiset.ofList (List.zipIdx_map_fst 0 contents)

theorem byId_succeededWith (hkinds : ∀ c ∈ contents, isOutputKind c.kind = true)
    (kind : ArtifactKind) :
    (succeededWith contents).byId kind = contents.filter fun c => c.kind == kind := by
  have hsorted : (contents.zipIdx.map fun e => (e.2, outputArtifact e.1)).Pairwise
      fun a b => a.1 < b.1 := by
    rw [List.pairwise_map]
    have hrange : (contents.zipIdx.map Prod.snd).Pairwise (· < ·) := by
      rw [List.zipIdx_map_snd]
      exact List.pairwise_lt_range'
    exact List.pairwise_map.mp hrange
  have hfilter := (rows_perm hkinds).filter fun row => row.2.kind == kind
  have hids := hsorted.filter fun row => row.2.kind == kind
  have hsort : ((succeededWith contents).rows.filter fun row => row.2.kind == kind).insertionSort
      (fun a b => a.1 ≤ b.1) =
        (contents.zipIdx.map fun e => (e.2, outputArtifact e.1)).filter
          fun row => row.2.kind == kind := by
    have htotal : Std.Total fun a b : Uuid × Artifact => a.1 ≤ b.1 :=
      ⟨fun a b => le_total a.1 b.1⟩
    have htrans : IsTrans (Uuid × Artifact) fun a b => a.1 ≤ b.1 := ⟨fun a b c => le_trans⟩
    have hle := List.pairwise_insertionSort (fun a b : Uuid × Artifact => a.1 ≤ b.1)
      ((succeededWith contents).rows.filter fun row => row.2.kind == kind)
    refine ((List.perm_insertionSort _ _).trans hfilter).eq_of_pairwise ?_ hle
      (hids.imp fun h => le_of_lt h)
    intro a b ha hb hab hba
    have ha' := hfilter.mem_iff.mp ((List.perm_insertionSort _ _).mem_iff.mp ha)
    exact List.inj_on_of_nodup_map ((List.pairwise_map.mpr hids).imp fun h => ne_of_lt h) ha' hb
      (le_antisymm hab hba)
  rw [Succeeded.byId, hsort]
  calc
    ((contents.zipIdx.map fun e => (e.2, outputArtifact e.1)).filter
          fun row => row.2.kind == kind).map (fun row => content row.2)
        = ((contents.zipIdx.map fun e => (e.2, outputArtifact e.1)).map
            fun row => content row.2).filter fun c => c.kind == kind :=
          (List.filter_map (f := fun row : Uuid × Artifact => content row.2)
            (p := fun c => c.kind == kind)).symm
    _ = (contents.zipIdx.map Prod.fst).filter fun c => c.kind == kind := by
        rw [List.map_map]
        rfl
    _ = contents.filter fun c => c.kind == kind := by rw [List.zipIdx_map_fst]

end Given

/-! ## What a manifest can list -/

/-- Outputs a manifest has room for: at most 128, of at most 100 MiB each. -/
structure Listable (contents : Multiset Content) : Prop where
  kinds : ∀ c ∈ contents, isOutputKind c.kind = true
  sizes : ∀ c ∈ contents, c.sizeBytes ≤ 100 * 1024 * 1024
  nonempty : contents ≠ 0
  count : contents.card ≤ 128

theorem isAlphanumeric_of_isDigit {c : Char} (h : c.isDigit = true) : isAlphanumeric c = true := by
  rw [Char.isDigit, Bool.and_eq_true] at h
  have hdigit : Documents.isDigit c = true := by
    simpa [Documents.isDigit, Char.le_def] using h
  rw [isAlphanumeric, hdigit, Bool.or_true]

theorem mem_padded {width n : Nat} {c : Char} (h : c ∈ padded width n) : c.isDigit = true := by
  rcases List.mem_append.mp h with h | h
  · rw [List.eq_of_mem_replicate h]
    rfl
  · exact Json.isDigit_toDigits h

theorem isToken_outputName (kind : ArtifactKind) (n : Nat) : isToken (outputName kind n) = true := by
  have hkind : (("output-".toList ++ kind.value.toList).all fun c =>
      isAlphanumeric c || c == '.' || c == '_' || c == '-') = true := by
    cases kind <;> decide +kernel
  have hdigits : ((padded 3 n).all fun c =>
      isAlphanumeric c || c == '.' || c == '_' || c == '-') = true := by
    rw [List.all_eq_true]
    intro c hc
    rw [isAlphanumeric_of_isDigit (mem_padded hc)]
    rfl
  have hempty : (outputName kind n).isEmpty = false := rfl
  have hall : ((outputName kind n).all fun c =>
      isAlphanumeric c || c == '.' || c == '_' || c == '-') = true := by
    unfold outputName
    rw [List.all_append, List.all_cons, hkind, hdigits]
    decide +kernel
  unfold isToken
  rw [hempty, hall]
  decide

theorem length_outputName {n : Nat} (kind : ArtifactKind) (hn : n < 1000) :
    (outputName kind n).length ≤ 160 := by
  have hkind : ("output-".toList ++ kind.value.toList).length ≤ 100 := by
    cases kind <;> decide +kernel
  have hdigits : (padded 3 n).length = 3 := padded_length (by decide) hn
  unfold outputName
  rw [List.length_append, List.length_cons, hdigits]
  omega

theorem numberedDigest_valid {c : Content} {n : Nat} (hsize : c.sizeBytes ≤ 100 * 1024 * 1024)
    (hn : n < 1000) : (numberedDigest (c, n)).valid = true := by
  have hlength := length_outputName c.kind hn
  have hhead : (outputName c.kind n).head?.any isAlphanumeric = true := rfl
  have hpos : 1 ≤ (outputName c.kind n).length := by
    unfold outputName
    simp
  unfold ContentDigest.valid numberedDigest
  simp only [hasLength, isName, isToken_outputName, hhead, Bool.and_eq_true, decide_eq_true_eq]
  exact ⟨⟨⟨hpos, hlength⟩, trivial, trivial⟩, hsize⟩

/-- A run with outputs a manifest can list has their digests. -/
theorem digests_listable (sha256 : List Char → Sha256) (h : Listable s.contents) :
    s.digests sha256 = .ok (outputDigests s.rows) := by
  have hcount : s.rows.length ≤ 128 := by
    simpa [Succeeded.contents] using h.count
  have hempty : s.rows.isEmpty = false := by
    rw [List.isEmpty_eq_false_iff]
    intro hrows
    exact h.nonempty (by rw [Succeeded.contents, hrows]; rfl)
  have hvalid : (outputDigests s.rows).all ContentDigest.valid = true := by
    rw [outputDigests_eq, List.all_eq_true]
    intro digest hdigest
    obtain ⟨⟨c, n⟩, hmem, rfl⟩ := List.mem_map.mp hdigest
    have hc : c ∈ s.contents := List.fst_mem_of_mem_zipIdx hmem
    have hn := List.snd_lt_of_mem_zipIdx hmem
    rw [List.length_map] at hn
    exact numberedDigest_valid (h.sizes c hc) (by omega)
  unfold Succeeded.digests authoritativeOutputs checkDigests
  rw [hempty, hvalid]
  rfl

/-! ## The law -/

/-- No kind has two different contents. -/
def OneEach (contents : Multiset Content) : Prop :=
  ∀ c ∈ contents, ∀ c' ∈ contents, c.kind = c'.kind → c = c'

theorem byId_of_oneEach (hsame : s.contents = t.contents) (h : OneEach s.contents)
    (kind : ArtifactKind) : s.byId kind = t.byId kind := by
  have hperm : (s.rows.map fun row => content row.2).Perm (t.rows.map fun row => content row.2) :=
    Multiset.coe_eq_coe.mp hsame
  rw [s.byId_eq, t.byId_eq]
  have hany (l : List Content) : l.Pairwise fun _ _ => True :=
    List.pairwise_of_forall fun _ _ => trivial
  refine (hperm.filter _).eq_of_pairwise ?_ (hany _) (hany _)
  intro a b ha hb _ _
  obtain ⟨ha, hka⟩ := List.mem_filter.mp ha
  obtain ⟨hb, hkb⟩ := List.mem_filter.mp hb
  rw [beq_iff_eq] at hka hkb
  exact h a ha b (hperm.mem_iff.mpr hb) (hka.trans hkb.symm)

/-- Two orders of two contents of one kind have different digests. -/
theorem digests_of_swap {c c' : Content} {rest : List Content} (hkind : c.kind = c'.kind)
    (hne : c ≠ c') (hkinds : ∀ x ∈ c :: c' :: rest, isOutputKind x.kind = true)
    {d d' : List ContentDigest} (hd : (succeededWith (c :: c' :: rest)).digests sha256 = .ok d)
    (hd' : (succeededWith (c' :: c :: rest)).digests sha256 = .ok d') : d ≠ d' := by
  intro heq
  have hkinds' : ∀ x ∈ c' :: c :: rest, isOutputKind x.kind = true := fun x hx =>
    hkinds x ((List.Perm.swap c c' rest).mem_iff.mp hx)
  have hbyId := ((digests_eq_iff hd hd').mp heq).1 c.kind
  have hfilter (x : Content) (xs : List Content) (hx : x.kind = c.kind) :
      ((x :: xs).filter fun y => y.kind == c.kind) = x :: xs.filter fun y => y.kind == c.kind :=
    List.filter_cons_of_pos (by simp [hx])
  rw [byId_succeededWith hkinds, byId_succeededWith hkinds', hfilter c _ rfl,
    hfilter c' (c :: rest) hkind.symm] at hbyId
  exact hne (List.cons.inj hbyId).1

/-- A manifest with given outputs. -/
def manifestWith (digests : List ContentDigest) : Manifests.RunManifest :=
  { sampleManifest integerParameters with outputDigests := digests }

theorem outputsMatch_iff {e o : Manifests.RunManifest} :
    (compareReplay e o).outputsMatch = true ↔ e.outputDigests = o.outputDigests := by
  simp [compareReplay]

/-- **Replay outputs.** Two runs' manifests agree on their outputs exactly when
the outputs agree kind by kind in the order of their random identifiers; and for
a given multiset of outputs they agree whatever the identifiers are exactly when
no kind has two different contents. -/
theorem replay_outputs_match (sha256 : List Char → Sha256) :
    (∀ (s t : Succeeded) (e o : Manifests.RunManifest), s.digests sha256 = .ok e.outputDigests →
      t.digests sha256 = .ok o.outputDigests →
        ((compareReplay e o).outputsMatch = true ↔
          (∀ kind, s.byId kind = t.byId kind) ∧ (s.rows = [] → SameSummary sha256 s t))) ∧
    ∀ contents : Multiset Content, Listable contents →
      ((∀ (s t : Succeeded) (e o : Manifests.RunManifest), s.contents = contents →
          t.contents = contents → s.digests sha256 = .ok e.outputDigests →
            t.digests sha256 = .ok o.outputDigests → (compareReplay e o).outputsMatch = true) ↔
        OneEach contents) := by
  refine ⟨fun s t e o hs ht => ?_, fun contents hlist => ⟨fun law => ?_, ?_⟩⟩
  · rw [outputsMatch_iff]
    exact digests_eq_iff hs ht
  · intro c hc c' hc' hkind
    by_contra hne
    obtain ⟨tail, rfl⟩ := Multiset.exists_cons_of_mem hc
    obtain ⟨tail, rfl⟩ := Multiset.exists_cons_of_mem
      ((Multiset.mem_cons.mp hc').resolve_left (Ne.symm hne))
    obtain ⟨rest, rfl⟩ := Quot.exists_rep tail
    have hs : (succeededWith (c :: c' :: rest)).contents = c ::ₘ c' ::ₘ Multiset.ofList rest :=
      contents_succeededWith hlist.kinds
    have ht : (succeededWith (c' :: c :: rest)).contents = c ::ₘ c' ::ₘ Multiset.ofList rest := by
      rw [contents_succeededWith fun x hx => hlist.kinds x
        ((List.Perm.swap c c' rest).mem_iff.mp hx)]
      exact Multiset.cons_swap c' c (Multiset.ofList rest)
    have hd := digests_listable sha256 (hs ▸ hlist)
    have hd' := digests_listable sha256 (ht ▸ hlist)
    have hmatch := law _ _ (manifestWith _) (manifestWith _) hs ht hd hd'
    exact digests_of_swap hkind hne hlist.kinds hd hd' (outputsMatch_iff.mp hmatch)
  · intro hone s t e o hs ht hd hd'
    rw [outputsMatch_iff, digests_eq_iff hd hd']
    refine ⟨byId_of_oneEach (hs.trans ht.symm) (hs ▸ hone), fun hrows => ?_⟩
    refine absurd ?_ hlist.nonempty
    rw [← hs, Succeeded.contents, hrows]
    rfl

def firstExport : Content := ⟨.export, 1, 1⟩

def secondExport : Content := ⟨.export, 2, 1⟩

def runResult : Content := ⟨.runResult, 3, 8⟩

/-- Run 1 replays run 0 and run 3 replays run 2. The identifiers of run 1 reverse
those of run 0 across kinds, and those of run 3 reverse the two exports of run 2. -/
def replayedOutputs : Table Uuid Artifact where
  entries := [(2, 0, firstExport), (6, 0, runResult), (5, 1, firstExport), (1, 1, runResult),
      (3, 2, firstExport), (4, 2, secondExport), (8, 2, runResult),
      (10, 3, firstExport), (7, 3, secondExport), (11, 3, runResult)].map fun e =>
    ⟨e.1, { outputArtifact e.2.2 with runId := some e.2.1 }⟩
  nodupKeys := by
    show List.Nodup _
    decide

def replayedRun (runId : Uuid) : Succeeded where
  db := { artifacts := replayedOutputs }
  runId := runId
  run := plainRun
  resultSummary := none

def replayedManifest (runId : Uuid) : Manifests.RunManifest :=
  manifestWith (outputDigests (replayedRun runId).rows)

theorem replayedRun_listable {runId : Uuid} (h : runId ∈ [0, 1, 2, 3]) :
    Listable (replayedRun runId).contents := by
  have hall : ∀ runId ∈ [0, 1, 2, 3], (∀ c ∈ (replayedRun runId).contents,
      isOutputKind c.kind = true ∧ c.sizeBytes ≤ 100 * 1024 * 1024) ∧
      (replayedRun runId).contents ≠ 0 ∧ (replayedRun runId).contents.card ≤ 128 := by
    decide +kernel
  obtain ⟨heach, hnonempty, hcount⟩ := hall runId h
  exact ⟨fun c hc => (heach c hc).1, fun c hc => (heach c hc).2, hnonempty, hcount⟩

theorem replay_outputs_match_sample :
    (compareReplay (replayedManifest 0) (replayedManifest 1)).outputsMatch = true ∧
      (replayedRun 2).contents = (replayedRun 3).contents ∧
      (compareReplay (replayedManifest 2) (replayedManifest 3)).outputsMatch ≠ true := by
  have hdigests {runId : Uuid} (h : runId ∈ [0, 1, 2, 3]) := digests_listable (fun _ => 0)
    (replayedRun_listable h)
  obtain ⟨hpair, hlaw⟩ := replay_outputs_match fun _ => 0
  have hsame : (replayedRun 1).contents = (replayedRun 0).contents := by decide +kernel
  have hone : OneEach (replayedRun 0).contents := by
    unfold OneEach
    decide +kernel
  have hswapped : (replayedRun 2).byId .export ≠ (replayedRun 3).byId .export := by decide +kernel
  refine ⟨?_, by decide +kernel, fun hmatch => ?_⟩
  · exact (hlaw _ (replayedRun_listable (by decide))).mpr hone _ _ _ _ rfl hsame
      (hdigests (by decide)) (hdigests (by decide))
  · exact hswapped
      (((hpair _ _ _ _ (hdigests (by decide)) (hdigests (by decide))).mp hmatch).1 .export)

/-- Two exports that change places. -/
theorem exports_swap :
    ¬∀ (sha256 : List Char → Sha256) (s t : Succeeded) (e o : Manifests.RunManifest),
      s.contents = t.contents → s.digests sha256 = .ok e.outputDigests →
        t.digests sha256 = .ok o.outputDigests → (compareReplay e o).outputsMatch = true := by
  intro law
  have hkinds : ∀ x ∈ [firstExport, secondExport], isOutputKind x.kind = true := by decide
  have hkinds' : ∀ x ∈ [secondExport, firstExport], isOutputKind x.kind = true := by decide
  have hs := contents_succeededWith hkinds
  have ht := contents_succeededWith hkinds'
  have hsame : (succeededWith [firstExport, secondExport]).contents =
      (succeededWith [secondExport, firstExport]).contents := by
    rw [hs, ht]
    exact Multiset.coe_eq_coe.mpr (List.Perm.swap _ _ _)
  have hlist : Listable (succeededWith [firstExport, secondExport]).contents := by
    rw [hs]
    exact ⟨hkinds, by decide, by decide, by decide⟩
  have hd := digests_listable (fun _ => 0) hlist
  have hd' := digests_listable (fun _ => 0) (hsame ▸ hlist)
  have hmatch := law (fun _ => 0) _ _ (manifestWith _) (manifestWith _) hsame hd hd'
  have hkind : firstExport.kind = secondExport.kind := rfl
  have hne : firstExport ≠ secondExport := by decide
  exact digests_of_swap hkind hne hkinds hd hd' (outputsMatch_iff.mp hmatch)

end CorpusKit.RunManifestService
