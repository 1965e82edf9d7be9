import CorpusKit.Library.Paging
import CorpusKit.System.Obligations

/-! # Corpora and their versions

The versions of a corpus form one line, and what is stored of a version is the
prepared content it was created from, in every state the services reach. -/

namespace CorpusKit

open Transaction Program Interleaving

/-! ## Numbers -/

/-- Some version of the corpus has the number. -/
def Db.HasNumber (db : Db) (corpusId : Uuid) (k : Nat) : Prop :=
  ∃ v version, db.corpusVersions.lookup v = some version ∧ version.corpusId = corpusId ∧
    version.versionNumber = k

/-- The versions of a corpus: numbered from 1 to `n`, each after its parent. -/
structure LinearHistory (db : Db) (corpusId : Uuid) (n : Nat) : Prop where
  numbers : ∀ k, db.HasNumber corpusId k ↔ 1 ≤ k ∧ k ≤ n
  unique : ∀ {v v' version version'}, db.corpusVersions.lookup v = some version →
    db.corpusVersions.lookup v' = some version' → version.corpusId = corpusId →
    version'.corpusId = corpusId → version.versionNumber = version'.versionNumber → v = v'
  first : ∀ {v version}, db.corpusVersions.lookup v = some version →
    version.corpusId = corpusId → version.versionNumber = 1 → version.parentVersionId = none
  next : ∀ {v version k}, db.corpusVersions.lookup v = some version →
    version.corpusId = corpusId → version.versionNumber = k + 1 → 1 ≤ k →
    ∃ p parent, version.parentVersionId = some p ∧ db.corpusVersions.lookup p = some parent ∧
      parent.corpusId = corpusId ∧ parent.versionNumber = k

section Numbers

variable {good : PreparedCorpus → Prop} {db : Db}

theorem Db.History.number_pos (h : db.History good) {v : Uuid} {version : CorpusVersion}
    (hv : db.corpusVersions.lookup v = some version) : 1 ≤ version.versionNumber := by
  obtain ⟨hone, -⟩ | ⟨p, parent, -, -, -, hnext⟩ := h.numbered hv
  · exact Nat.le_of_eq hone.symm
  · rw [hnext]
    exact Nat.succ_le_succ (Nat.zero_le _)

/-- No number is skipped. -/
theorem Db.History.number_below (h : db.History good) {corpusId : Uuid} {k n : Nat}
    (hn : db.HasNumber corpusId n) (hk : 1 ≤ k) (hkn : k ≤ n) : db.HasNumber corpusId k := by
  induction n with
  | zero => omega
  | succ n ih =>
    obtain rfl | hlt := Nat.eq_or_lt_of_le hkn
    · exact hn
    · refine ih ?_ (Nat.le_of_lt_succ hlt)
      obtain ⟨v, version, hv, hcorpus, hnumber⟩ := hn
      obtain ⟨hone, -⟩ | ⟨p, parent, -, hp, hc, hnext⟩ := h.numbered hv
      · omega
      · exact ⟨p, parent, hp, hc.trans hcorpus, by omega⟩

/-- The number of the latest version is the number of versions. -/
theorem Db.History.linear (h : db.History good) {corpusId : Uuid} {corpus : Corpus}
    (hcorpus : db.corpora.lookup corpusId = some corpus) : ∃ n, LinearHistory db corpusId n := by
  have hbound : ∃ n, ∀ k, db.HasNumber corpusId k ↔ 1 ≤ k ∧ k ≤ n := by
    have hmine : ∀ {v version}, db.corpusVersions.lookup v = some version →
        version.corpusId = corpusId → version.organizationId = corpus.organizationId := by
      intro v version hv hc
      obtain ⟨owner, howner, horg⟩ := h.located hv
      rw [hc, hcorpus] at howner
      cases howner
      exact horg.symm
    cases hlatest : ProjectWorkspace.latestVersion db corpus.organizationId corpusId with
    | none =>
      refine ⟨0, fun k => ⟨fun ⟨v, version, hv, hc, _⟩ => ?_, fun hk => by omega⟩⟩
      exact absurd hc (latestVersion_none_iff hlatest hv (hmine hv hc))
    | some latest =>
      obtain ⟨hrow, -, hc, hmax⟩ := latestVersion_some hlatest
      refine ⟨latest.2.versionNumber, fun k => ⟨fun ⟨v, version, hv, hc', hnumber⟩ => ?_, fun hk =>
        h.number_below ⟨_, _, hrow, hc, rfl⟩ hk.1 hk.2⟩⟩
      rw [← hnumber]
      exact ⟨h.number_pos hv, hmax hv (hmine hv hc') hc'⟩
  obtain ⟨n, hn⟩ := hbound
  refine ⟨n, ⟨hn, fun hv hv' hc hc' hsame => h.unique hv hv' (hc.trans hc'.symm) hsame,
    fun {v version} hv _ hone => ?_, fun {v version k} hv hc hnumber hk => ?_⟩⟩
  · obtain ⟨-, hroot⟩ | ⟨p, parent, -, hp, -, hnext⟩ := h.numbered hv
    · exact hroot
    · have := h.number_pos hp
      omega
  · obtain ⟨hone, -⟩ | ⟨p, parent, hparent, hp, hsame, hnext⟩ := h.numbered hv
    · omega
    · exact ⟨p, parent, hparent, hp, hsame.trans hc, by omega⟩

end Numbers

/-! ## Content -/

open RunManifestService

/-- The rows of a version with these texts. -/
def sentenceRows (v org : Uuid) (texts : List String) : List ((Uuid × Nat) × Sentence) :=
  texts.zipIdx.map fun e => ((v, e.2), ⟨org, e.1⟩)

theorem sentenceRows_ordinals (v org : Uuid) (texts : List String) :
    (sentenceRows v org texts).map (fun e => e.1.2) = List.range texts.length := by
  rw [sentenceRows, List.map_map, List.range_eq_range', ← List.zipIdx_map_snd 0 texts]
  rfl

theorem sentenceRows_texts (v org : Uuid) (texts : List String) :
    (sentenceRows v org texts).map (fun e => e.2.normalizedText) = texts := by
  rw [sentenceRows, List.map_map]
  exact List.zipIdx_map_fst 0 texts

/-- Reading the sentences of a version back gives its rows in ordinal order. -/
theorem versionSentences_eq {db : Db} {v org : Uuid} {texts : List String}
    (h : Holds db.sentences v org texts) : versionSentences db org v = sentenceRows v org texts := by
  have hordered : Paging.Ordered (fun e : (Uuid × Nat) × Sentence => e.1.2)
      (sentenceRows v org texts) := by
    rw [Paging.Ordered, ← List.pairwise_map (f := fun e : (Uuid × Nat) × Sentence => e.1.2)
      (R := (· < ·)), sentenceRows_ordinals]
    exact List.pairwise_lt_range
  refine Paging.sort_eq (f := fun e : (Uuid × Nat) × Sentence => e.1.2) hordered
    Table.select_nodup fun e => ?_
  obtain ⟨⟨v', n⟩, s⟩ := e
  rw [Table.mem_select, sentenceRows, List.mem_map]
  simp only [Bool.and_eq_true, beq_iff_eq, Prod.exists, Prod.mk.injEq]
  constructor
  · rintro ⟨hs, -, rfl⟩
    rw [h n, Option.map_eq_some_iff] at hs
    obtain ⟨text, htext, rfl⟩ := hs
    exact ⟨text, n, List.mk_mem_zipIdx_iff_getElem?.mpr htext, ⟨rfl, rfl⟩, rfl⟩
  · rintro ⟨text, m, hmem, ⟨rfl, rfl⟩, rfl⟩
    rw [h m, List.mk_mem_zipIdx_iff_getElem?.mp hmem]
    exact ⟨rfl, rfl, rfl⟩

/-- What is stored of a version: the rows of prepared texts, and their digest. -/
structure StoredCorpus (dep : Deployment) (db : Db) (v : Uuid) (version : CorpusVersion)
    (texts : List String) : Prop where
  rows : Holds db.sentences v version.organizationId texts
  ordinals : ∀ n, (db.sentences.lookup (v, n)).isSome = true ↔ n < version.sentenceCount
  nonempty : texts ≠ []
  plain : Plain dep.nfc texts
  digest : version.contentSha256 = dep.sha256 (canonicalCorpus version.language texts)

section Content

variable {dep : Deployment} {db : Db}

theorem Db.History.stored (hnfc : Nfc dep.nfc) (h : db.History (Prepared dep)) {v : Uuid}
    {version : CorpusVersion} (hv : db.corpusVersions.lookup v = some version) :
    ∃ texts, StoredCorpus dep db v version texts ∧ texts.length = version.sentenceCount := by
  obtain ⟨texts, hrows, hcount, limits, request, hprepared⟩ := h.content hv
  have hwell := prepareCorpus_wellFormed hnfc hprepared
  refine ⟨texts, ⟨hrows, fun n => ?_, hwell.nonempty, hwell.plain, hwell.digest⟩, hcount⟩
  rw [hrows n, Option.isSome_map, ← hcount]
  simp

/-- Recomputing the digest of a stored version reproduces it. -/
theorem corpusDigest_stored {run : Run} {v : Uuid} {version : CorpusVersion} {texts : List String}
    (hrun : runVersion db run = some (v, version)) (horg : version.organizationId = run.organizationId)
    (hstored : StoredCorpus dep db v version texts) (hcount : texts.length = version.sentenceCount) :
    Returns (corpusDigest dep.sha256 run) db
      { name := "corpus-version", sha256 := version.contentSha256
        sizeBytes := utf8Length (canonicalCorpus version.language texts), artifactId := none } db := by
  have hrows := versionSentences_eq (horg ▸ hstored.rows)
  have htexts : (sentenceRows v run.organizationId texts).map
      (fun e => Json.Value.str e.2.normalizedText.toList) =
        texts.map fun text => Json.Value.str text.toList := by
    conv_rhs => rw [← sentenceRows_texts v run.organizationId texts, List.map_map]
    rfl
  have hlength : (sentenceRows v run.organizationId texts).length = version.sentenceCount := by
    rw [← hcount, sentenceRows, List.length_map, List.length_zipIdx]
  unfold corpusDigest
  refine Returns.seq (a := db) (t := db) rfl ?_
  rw [hrun]
  refine Returns.seq (a := (v, version)) (t := db) rfl ?_
  dsimp only
  rw [hrows, sentenceRows_ordinals, hcount, htexts]
  refine (Returns.checked ⟨hlength, rfl⟩).seq ?_
  rw [hstored.digest]
  exact (Returns.checked rfl).seq rfl

theorem runVersion_some {run : Run} {v : Uuid} {version : CorpusVersion}
    (h : runVersion db run = some (v, version)) : run.corpusVersionId = some v ∧
      db.corpusVersions.lookup v = some version ∧
      version.organizationId = run.organizationId := by
  unfold runVersion at h
  simp only [Option.bind_eq_bind, Option.bind_eq_some_iff] at h
  obtain ⟨v', hid, version', hv, corpus, -, h⟩ := h
  split at h
  · next hsame =>
    cases h
    exact ⟨hid, hv, hsame.1⟩
  · cases h

end Content

/-! ## The law -/

section Law

variable {dep : Deployment} {memberships : List Membership} {cfg : ServiceConfig dep}

/-- In every state the services reach, the versions of each corpus are one line
numbered from 1, the rows of each version are distinct normalized texts with
ordinals `0` to `sentenceCount - 1` under the digest of their canonical encoding,
and recomputing the digest for a manifest reproduces it. -/
theorem corpus_versions_consistent (hnfc : Nfc dep.nfc)
    (h : Reachable free (World.initial memberships) cfg) :
    (∀ corpusId corpus, cfg.world.db.corpora.lookup corpusId = some corpus →
      ∃ n, LinearHistory cfg.world.db corpusId n) ∧
    (∀ v version, cfg.world.db.corpusVersions.lookup v = some version → ∃ texts,
      StoredCorpus dep cfg.world.db v version texts ∧ texts.length = version.sentenceCount ∧
      ∀ run, runVersion cfg.world.db run = some (v, version) →
        Returns (corpusDigest dep.sha256 run) cfg.world.db
          { name := "corpus-version", sha256 := version.contentSha256
            sizeBytes := utf8Length (canonicalCorpus version.language texts), artifactId := none }
          cfg.world.db) ∧
    ∀ run, ¬ Raises (corpusDigest dep.sha256 run) cfg.world.db
      (.reproducibility "corpus_version_integrity_violation") := by
  have hi := (reachable_inv h).history
  refine ⟨fun corpusId corpus hcorpus => hi.linear hcorpus, fun v version hv => ?_, fun run hraise => ?_⟩
  · obtain ⟨texts, hstored, hcount⟩ := hi.stored hnfc hv
    exact ⟨texts, hstored, hcount, fun run hrun =>
      corpusDigest_stored hrun (runVersion_some hrun).2.2 hstored hcount⟩
  · cases hrun : runVersion cfg.world.db run with
    | none =>
      unfold corpusDigest at hraise
      obtain hget | ⟨db, db', hget, hraise⟩ := hraise.bind
      · cases hget
      obtain ⟨rfl, rfl⟩ := hget.get
      obtain hfound | ⟨found, db', hfound, -⟩ := hraise.bind
      · have hother := hfound.found.2
        simp at hother
      · rw [hrun] at hfound
        exact absurd hfound.found.1 nofun
    | some e =>
      obtain ⟨-, hv, horg⟩ := runVersion_some hrun
      obtain ⟨texts, hstored, hcount⟩ := hi.stored hnfc hv
      exact (corpusDigest_stored hrun horg hstored hcount).not_raises _ hraise

end Law

/-! ### A corpus of two versions -/

/-- The small deployment with the digests of two corpora. -/
def Deployment.sample : Deployment where
  nfc := fun text => text
  sha256 := fun text =>
    if text = "\x7b\"language\":\"en\",\"sentences\":[\"one two\",\"three\"]\x7d".toList then
      0x1f917a635cd7b131fe5848293931c37ff5a25acce373f6a1669c4fbe2c9e521e
    else if text = "\x7b\"language\":\"en\",\"sentences\":[\"four\"]\x7d".toList then
      0x72d0de088e59dacf779c846b1396e57be67753e32fa63bc344d7477acb3a9a46
    else 0
  admits := fun _ _ => true
  corpusLimits := ⟨100, 100⟩
  artifactRetention := seconds (30 * 24 * 60 * 60)
  orphanGrace := seconds (60 * 60)
  projectRetention := ProjectDeletion.minimumProjectRetention
  leaseDuration := seconds 60

theorem Nfc.ascii : Nfc Deployment.sample.nfc :=
  ⟨fun _ => rfl, fun _ _ => rfl, fun _ _ => rfl⟩

abbrev Sample : Machine := system .sample (services .sample)

def sampleOwner : WorkspaceActor := ⟨"owner", 1, none⟩

/-- Project 0 with corpus 1, in two versions. -/
def sampleCorpus : List (Move Sample) :=
  [.start (ServiceCall.ensureTenant 1), .act 0,
    .start (ServiceCall.createProject sampleOwner "project"), .act 1, .act 1] ++
  .start (ServiceCall.createCorpus sampleOwner 0 "corpus"
    ⟨"en", ["one  two", "three", "", "one two"]⟩) :: acts Sample 2 3 ++
  .start (ServiceCall.createVersion sampleOwner 0 1 ⟨"en", ["four"]⟩ "create_corpus_version") ::
    acts Sample 3 3

def sampleRun (schedule : List (Move Sample)) : Option (Config Sample) :=
  run (Config.init (M := Sample) (World.initial smallMembers)) schedule

theorem corpus_versions_consistent_sample :
    ((sampleRun sampleCorpus).map fun cfg => (cfg.world.db.corpora.keys,
      cfg.world.db.corpusVersions.rows.map fun e => (e.2.versionNumber, e.2.sentenceCount))) =
        some ([1], [(2, 1), (1, 2)]) ∧
    ∀ cfg, sampleRun sampleCorpus = some cfg → ∀ corpus, cfg.world.db.corpora.lookup 1 = some corpus →
      ∃ n, LinearHistory cfg.world.db 1 n :=
  ⟨by decide +kernel, fun _ h corpus hcorpus =>
    (corpus_versions_consistent Nfc.ascii (run_reachable (M := Sample) h)).1 1 corpus hcorpus⟩

end CorpusKit
