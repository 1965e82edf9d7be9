import CorpusKit.Persistence.Invariants

/-! # The history of a corpus

The versions of a corpus are numbered from one without gaps, each has the one
before it as its parent, and the stored sentences of a version are exactly the
prepared content it was created from. -/

namespace CorpusKit

open ProjectWorkspace

/-- The version is the first of its corpus, or follows its parent. -/
def Follows (versions : Table Uuid CorpusVersion) (version : CorpusVersion) : Prop :=
  (version.versionNumber = 1 ∧ version.parentVersionId = none) ∨
    ∃ p parent, version.parentVersionId = some p ∧ versions.lookup p = some parent ∧
      parent.corpusId = version.corpusId ∧ version.versionNumber = parent.versionNumber + 1

/-- The sentence rows of a version are these texts, in ordinal order. -/
def Holds (sentences : Table (Uuid × Nat) Sentence) (v org : Uuid) (texts : List String) : Prop :=
  ∀ n, sentences.lookup (v, n) = texts[n]?.map fun text => ⟨org, text⟩

structure Db.History (good : PreparedCorpus → Prop) (db : Db) : Prop where
  located : ∀ {v version}, db.corpusVersions.lookup v = some version →
    ∃ corpus, db.corpora.lookup version.corpusId = some corpus ∧
      corpus.organizationId = version.organizationId
  numbered : ∀ {v version}, db.corpusVersions.lookup v = some version →
    Follows db.corpusVersions version
  unique : ∀ {v v' version version'}, db.corpusVersions.lookup v = some version →
    db.corpusVersions.lookup v' = some version' → version.corpusId = version'.corpusId →
    version.versionNumber = version'.versionNumber → v = v'
  content : ∀ {v version}, db.corpusVersions.lookup v = some version →
    ∃ texts, Holds db.sentences v version.organizationId texts ∧
      texts.length = version.sentenceCount ∧
      good ⟨version.language, texts, version.contentSha256⟩
  owned : ∀ {v n s}, db.sentences.lookup (v, n) = some s →
    ∃ version, db.corpusVersions.lookup v = some version

variable {good : PreparedCorpus → Prop} {db : Db}

theorem Db.history_initial (memberships : List Membership) :
    (Db.initial memberships).History good where
  located h := (Table.not_mem_empty h).elim
  numbered h := (Table.not_mem_empty h).elim
  unique h := (Table.not_mem_empty h).elim
  content h := (Table.not_mem_empty h).elim
  owned h := (Table.not_mem_empty h).elim

/-! ## The latest version -/

/-- Later versions first. -/
def byNumber (a b : Uuid × CorpusVersion) : Prop :=
  b.2.versionNumber < a.2.versionNumber ∨
    (b.2.versionNumber = a.2.versionNumber ∧ b.1 ≤ a.1)

instance : DecidableRel byNumber := fun _ _ => inferInstanceAs (Decidable (_ ∨ _))

instance : Std.Total byNumber where
  total a b := by
    rcases Nat.lt_trichotomy a.2.versionNumber b.2.versionNumber with h | h | h
    · exact .inr (.inl h)
    · exact (Nat.le_total b.1 a.1).imp (fun hle => .inr ⟨h.symm, hle⟩) fun hle => .inr ⟨h, hle⟩
    · exact .inl (.inl h)

instance : IsTrans (Uuid × CorpusVersion) byNumber where
  trans a b c hab hbc := by
    rcases hab with hab | ⟨hab, hle⟩ <;> rcases hbc with hbc | ⟨hbc, hle'⟩
    · exact .inl (Nat.lt_trans hbc hab)
    · exact .inl (hbc ▸ hab)
    · exact .inl (hab ▸ hbc)
    · exact .inr ⟨hbc.trans hab, Nat.le_trans hle' hle⟩

theorem latestVersion_eq (org corpusId : Uuid) : latestVersion db org corpusId =
    ((db.corpusVersions.select fun _ version =>
      version.organizationId == org && version.corpusId == corpusId).insertionSort byNumber).head? :=
  rfl

theorem latestVersion_some {org corpusId : Uuid} {latest : Uuid × CorpusVersion}
    (h : latestVersion db org corpusId = some latest) :
    db.corpusVersions.lookup latest.1 = some latest.2 ∧ latest.2.organizationId = org ∧
      latest.2.corpusId = corpusId ∧ ∀ {v version}, db.corpusVersions.lookup v = some version →
        version.organizationId = org → version.corpusId = corpusId →
        version.versionNumber ≤ latest.2.versionNumber := by
  rw [latestVersion_eq] at h
  obtain ⟨hmem, hfirst⟩ := Table.head_insertionSort h
  obtain ⟨hrow, hmatch⟩ := Table.mem_select.mp hmem
  simp only [Bool.and_eq_true, beq_iff_eq] at hmatch
  refine ⟨hrow, hmatch.1, hmatch.2, fun {v version} hv horg hcorpus => ?_⟩
  obtain heq | hle := hfirst (v, version) (Table.mem_select.mpr ⟨hv, by simp [horg, hcorpus]⟩)
  · rw [← heq]
  · exact hle.elim Nat.le_of_lt fun hsame => Nat.le_of_eq hsame.1

theorem latestVersion_none_iff {org corpusId : Uuid} (h : latestVersion db org corpusId = none)
    {v : Uuid} {version : CorpusVersion} (hv : db.corpusVersions.lookup v = some version)
    (horg : version.organizationId = org) : version.corpusId ≠ corpusId := by
  intro hcorpus
  rw [latestVersion_eq, List.head?_eq_none_iff] at h
  have hselected : (v, version) ∈ db.corpusVersions.select fun _ version =>
      version.organizationId == org && version.corpusId == corpusId :=
    Table.mem_select.mpr ⟨hv, by simp [horg, hcorpus]⟩
  have hmem := (List.mem_insertionSort byNumber).mpr hselected
  rw [h] at hmem
  cases hmem

/-! ## A new version -/

theorem insertSentences_self {org v : Uuid} {texts : List String} {ordinal n : Nat}
    {sentences : Table (Uuid × Nat) Sentence} :
    (insertSentences org v ordinal texts sentences).lookup (v, ordinal + n) =
      match texts[n]? with
      | some text => some ⟨org, text⟩
      | none => sentences.lookup (v, ordinal + n) := by
  induction texts generalizing ordinal n sentences with
  | nil => rfl
  | cons text texts ih =>
    unfold insertSentences
    cases n with
    | zero =>
      rw [lookup_insertSentences (.inr (Nat.lt_succ_self _)), Nat.add_zero, AList.lookup_insert]
      rfl
    | succ n =>
      rw [show ordinal + (n + 1) = ordinal + 1 + n by omega, ih, List.getElem?_cons_succ]
      rw [AList.lookup_insert_ne (fun h => by have := congrArg Prod.snd h; simp at this; omega)]

theorem holds_insertSentences {org v : Uuid} {texts : List String}
    {sentences : Table (Uuid × Nat) Sentence} (hnew : ∀ n, sentences.lookup (v, n) = none) :
    Holds (insertSentences org v 0 texts sentences) v org texts := by
  intro n
  have hself : (insertSentences org v 0 texts sentences).lookup (v, 0 + n) = _ := insertSentences_self
  rw [Nat.zero_add] at hself
  rw [hself]
  cases texts[n]? with
  | some text => rfl
  | none => exact hnew n

theorem Db.History.version (h : db.History good) (hi : db.Inv) {version : CorpusVersion}
    {texts : List String} {corpus : Corpus} {usages : Table Uuid QuotaUsage}
    (hcorpus : db.corpora.lookup version.corpusId = some corpus)
    (horg : corpus.organizationId = version.organizationId) (hnext : db.NextVersion version)
    (hgood : good ⟨version.language, texts, version.contentSha256⟩)
    (hcount : version.sentenceCount = texts.length) :
    ({ db with
      nextId := db.nextId + 1
      corpusVersions := db.corpusVersions.insert db.nextId version
      sentences := insertSentences version.organizationId db.nextId 0 texts db.sentences
      quotaUsages := usages } : Db).History good := by
  have hsentences : ∀ n, db.sentences.lookup (db.nextId, n) = none := by
    intro n
    cases hs : db.sentences.lookup (db.nextId, n) with
    | none => rfl
    | some s => exact absurd (hi.sentences hs) (Nat.lt_irrefl _)
  have hold : ∀ {v other}, db.corpusVersions.lookup v = some other →
      (db.corpusVersions.insert db.nextId version).lookup v = some other := by
    intro v other hv
    rw [AList.lookup_insert_ne (hi.versions _ _ hv).ne]
    exact hv
  have hmine : ∀ {v other}, db.corpusVersions.lookup v = some other →
      other.corpusId = version.corpusId → other.organizationId = version.organizationId := by
    intro v other hv hsame
    obtain ⟨c, hc, ho⟩ := h.located hv
    rw [hsame, hcorpus] at hc
    cases hc
    exact ho.symm.trans horg
  -- no version of the corpus has the new number
  have hfresh : ∀ {v other}, db.corpusVersions.lookup v = some other →
      other.corpusId = version.corpusId → other.versionNumber ≠ version.versionNumber := by
    intro v other hv hsame
    unfold Db.NextVersion at hnext
    split at hnext
    · next hnone => exact absurd hsame (latestVersion_none_iff hnone hv (hmine hv hsame))
    · next latest hlatest =>
      have hle := (latestVersion_some hlatest).2.2.2 hv (hmine hv hsame) hsame
      omega
  have hfollows : Follows (db.corpusVersions.insert db.nextId version) version := by
    unfold Db.NextVersion at hnext
    split at hnext
    · exact .inl hnext
    · next latest hlatest =>
      obtain ⟨hrow, -, hc, -⟩ := latestVersion_some hlatest
      exact .inr ⟨latest.1, latest.2, hnext.2, hold hrow, hc, hnext.1⟩
  exact {
    located := fun {v other} hv => by
      obtain ⟨-, rfl⟩ | ⟨-, hv⟩ := Table.lookup_insert_cases hv
      · exact ⟨corpus, hcorpus, horg⟩
      · exact h.located hv
    numbered := fun {v other} hv => by
      obtain ⟨-, rfl⟩ | ⟨-, hv⟩ := Table.lookup_insert_cases hv
      · exact hfollows
      · obtain hfirst | ⟨p, parent, hparent, hp, hc, hn⟩ := h.numbered hv
        · exact .inl hfirst
        · exact .inr ⟨p, parent, hparent, hold hp, hc, hn⟩
    unique := fun {v v' a b} hv hv' hc hn => by
      obtain ⟨rfl, rfl⟩ | ⟨-, hv⟩ := Table.lookup_insert_cases hv <;>
        obtain ⟨rfl, rfl⟩ | ⟨-, hv'⟩ := Table.lookup_insert_cases hv'
      · rfl
      · exact absurd hn.symm (hfresh hv' hc.symm)
      · exact absurd hn (hfresh ‹_› hc)
      · exact h.unique hv hv' hc hn
    content := fun {v other} hv => by
      obtain ⟨rfl, rfl⟩ | ⟨hne, hv⟩ := Table.lookup_insert_cases hv
      · exact ⟨texts, holds_insertSentences hsentences, hcount.symm, hgood⟩
      · obtain ⟨stored, hstored, hlen, hg⟩ := h.content hv
        refine ⟨stored, fun n => ?_, hlen, hg⟩
        rw [← hstored n]
        exact lookup_insertSentences (.inl hne)
    owned := fun {v n s} hs => by
      obtain ⟨rfl, -⟩ | hs := mem_insertSentences hs
      · exact ⟨version, AList.lookup_insert _⟩
      · obtain ⟨other, hv⟩ := h.owned hs
        exact ⟨other, hold hv⟩ }

/-! ## Erasure -/

open ProjectDeletion

theorem inProject_eq {org projectId v : Uuid} {version : CorpusVersion} {corpus : Corpus}
    (hv : db.corpusVersions.lookup v = some version)
    (hcorpus : db.corpora.lookup version.corpusId = some corpus)
    (horg : corpus.organizationId = version.organizationId) :
    inProject db org projectId v = true ↔
      corpus.organizationId = org ∧ corpus.projectId = projectId := by
  unfold inProject
  rw [hv]
  simp only [hcorpus, Option.any_some, Bool.and_eq_true, beq_iff_eq, ← horg]
  exact ⟨fun h => h.2, fun h => ⟨h.1, h⟩⟩

/-- A corpus goes with all its versions, and a version with all its sentences. -/
theorem Db.History.erase (h : db.History good) {org projectId : Uuid}
    {usages : Table Uuid QuotaUsage} {projects : Table Uuid Project} :
    ({ eraseRows db org projectId with
      quotaUsages := usages, projects } : Db).History good where
  located {v version} hv := by
    obtain ⟨hv, hkept⟩ := Table.lookup_deleteWhere.mp hv
    obtain ⟨corpus, hcorpus, horg⟩ := h.located hv
    refine ⟨corpus, Table.lookup_deleteWhere.mpr ⟨hcorpus, ?_⟩, horg⟩
    rw [Bool.eq_false_iff, Ne, Bool.and_eq_true, beq_iff_eq, beq_iff_eq]
    intro hgone
    rw [(inProject_eq hv hcorpus horg).mpr hgone] at hkept
    cases hkept
  numbered {v version} hv := by
    obtain ⟨hv, hkept⟩ := Table.lookup_deleteWhere.mp hv
    obtain hfirst | ⟨p, parent, hparent, hp, hc, hn⟩ := h.numbered hv
    · exact .inl hfirst
    · refine .inr ⟨p, parent, hparent, Table.lookup_deleteWhere.mpr ⟨hp, ?_⟩, hc, hn⟩
      obtain ⟨corpus, hcorpus, horg⟩ := h.located hv
      obtain ⟨other, hother, horg'⟩ := h.located hp
      rw [hc, hcorpus] at hother
      cases hother
      rw [← hkept, Bool.eq_iff_iff, inProject_eq hv hcorpus horg,
        inProject_eq hp (hc ▸ hcorpus) horg']
  unique hv hv' :=
    h.unique (Table.lookup_deleteWhere.mp hv).1 (Table.lookup_deleteWhere.mp hv').1
  content {v version} hv := by
    obtain ⟨hv, hkept⟩ := Table.lookup_deleteWhere.mp hv
    obtain ⟨texts, hstored, hlen, hgood⟩ := h.content hv
    refine ⟨texts, fun n => ?_, hlen, hgood⟩
    rw [← hstored n]
    apply Option.ext
    intro s
    refine ⟨fun hs => (Table.lookup_deleteWhere.mp hs).1, fun hs => ?_⟩
    exact Table.lookup_deleteWhere.mpr ⟨hs, by rw [hkept, Bool.and_false]⟩
  owned {v n s} hs := by
    obtain ⟨hs, hkept⟩ := Table.lookup_deleteWhere.mp hs
    obtain ⟨version, hv⟩ := h.owned hs
    refine ⟨version, Table.lookup_deleteWhere.mpr ⟨hv, ?_⟩⟩
    obtain ⟨corpus, hcorpus, horg⟩ := h.located hv
    obtain ⟨texts, hstored, -, -⟩ := h.content hv
    have hsorg : s.organizationId = version.organizationId := by
      rw [hstored n, Option.map_eq_some_iff] at hs
      obtain ⟨text, -, rfl⟩ := hs
      rfl
    rw [Bool.eq_false_iff]
    intro hgone
    have hmine := (inProject_eq hv hcorpus horg).mp hgone
    rw [show inProject db org projectId (v, n).1 = true from hgone, hsorg, ← horg, hmine.1] at hkept
    simp at hkept

/-! ## Every change keeps it -/

variable {permit : Permit}

theorem Change.history {db db' : Db} (hc : Change permit db db') (hi : db.Inv)
    (hgood : ∀ prepared, permit.content = some prepared → good prepared)
    (h : db.History good) : db'.History good := by
  cases hc with
  | evidence event hhead hfree hplain => exact { h with owned := h.owned }
  | id => exact { h with owned := h.owned }
  | move hrun => exact { h with owned := h.owned }
  | finish hrun => exact { h with owned := h.owned }
  | adopt time mediaType schemaId hrun => exact { h with owned := h.owned }
  | note hrun => exact { h with owned := h.owned }
  | settle hrun => exact { h with owned := h.owned }
  | renew hres => exact { h with owned := h.owned }
  | submit hpermit => exact { h with owned := h.owned }
  | lineage replay hid => exact { h with owned := h.owned }
  | observe manifest hreplay => exact { h with owned := h.owned }
  | record facts hfree => exact { h with owned := h.owned }
  | manifest artifactId sha256 hfacts => exact { h with owned := h.owned }
  | store artifact hproject => exact { h with owned := h.owned }
  | tombstone hpermit => exact { h with owned := h.owned }
  | discard hpermit => exact { h with owned := h.owned }
  | publish publication hfree => exact { h with owned := h.owned }
  | intent message hrun => exact { h with owned := h.owned }
  | claim workerId now expired hrow => exact { h with owned := h.owned }
  | acknowledge now hrow => exact { h with owned := h.owned }
  | release availableAt hrow => exact { h with owned := h.owned }
  | project project => exact { h with owned := h.owned }
  | corpus corpus hproject =>
    refine { h with located := fun {v version} hv => ?_ }
    obtain ⟨other, hother, horg⟩ := h.located hv
    refine ⟨other, ?_, horg⟩
    show (db.corpora.insert db.nextId corpus).lookup version.corpusId = some other
    rw [AList.lookup_insert_ne (hi.versioned hv).ne]
    exact hother
  | version version texts hcorpus horg hproject hnext hcontent hcount =>
    exact h.version hi hcorpus horg hnext (hgood _ hcontent) hcount
  | schedule hpermit => exact { h with owned := h.owned }
  | erase hpermit => exact h.erase
  | policy hreplaces hfree => exact { h with owned := h.owned }
  | provision org => exact { h with owned := h.owned }

theorem Changes.history {db db' : Db} (hc : Changes permit db db') (hi : db.Inv)
    (hgood : ∀ prepared, permit.content = some prepared → good prepared)
    (h : db.History good) : db'.History good := by
  induction hc with
  | refl => exact h
  | tail hs hstep ih => exact hstep.history (Changes.inv hs hi) hgood ih

end CorpusKit
