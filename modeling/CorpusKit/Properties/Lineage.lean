import CorpusKit.Properties.Corpora

/-! # Runs linked to corpora

A submission that names a corpus version is admitted when preparing its inline
sentences gives that version. The worker executes the inline sentences as they
are, so it executes the stored ones exactly when preparation changes nothing. -/

namespace CorpusKit

open Transaction Program Interleaving JobControlPlane RunManifestService

/-- The sentences the handlers of the three linkable kinds pass to the engine. -/
def executedSentences : RunKind → RunRequest → Option (List String)
  | .phonemize, .phonemize request =>
    some (match request.text with
      | some text => [text]
      | none => request.texts)
  | .evaluate, .evaluate request => some request.sentences
  | .select, .select request => some request.candidates
  | _, _ => none

/-- The check and the handlers read the same fields. -/
theorem executedSentences_of_inline {kind : RunKind} {request : RunRequest} {language : String}
    {sentences : List String} (h : inlineCorpus kind request = some (language, sentences)) :
    executedSentences kind request = some sentences := by
  unfold inlineCorpus at h
  split at h
  · next request =>
    cases h
    simp only [executedSentences, Option.some.injEq]
    cases request.text <;> rfl
  · cases h
    rfl
  · cases h
    rfl
  · cases h

/-- The stored normalized sentences of a version, in ordinal order. -/
def storedSentences (db : Db) (v : Uuid) (version : CorpusVersion) : List String :=
  (versionSentences db version.organizationId v).map fun e => e.2.normalizedText

theorem storedSentences_eq {dep : Deployment} {db : Db} {v : Uuid} {version : CorpusVersion}
    {texts : List String} (h : StoredCorpus dep db v version texts) :
    storedSentences db v version = texts := by
  rw [storedSentences, versionSentences_eq h.rows, sentenceRows_texts]

/-- The encodings the digests of a database stand for: those of its corpus versions,
and those of the inline corpora of its runs. -/
def hashedCorpora (dep : Deployment) (db : Db) : Set (List Char) := fun x =>
  (∃ v version, db.corpusVersions.lookup v = some version ∧
    x = canonicalCorpus version.language (storedSentences db v version)) ∨
  ∃ id run language sentences corpus prepared, db.runs.lookup id = some run ∧
    inlineCorpus run.kind run.spec.request = some (language, sentences) ∧
    corpusImportRequest language sentences = some corpus ∧ dep.prepareInline corpus = .ok prepared ∧
    x = canonicalCorpus prepared.language prepared.sentences

section Law

variable {dep : Deployment} {memberships : List Membership} {cfg : ServiceConfig dep}

/-- Whatever run names a corpus version, its worker executes the stored sentences of
that version if and only if its inline sentences are distinct, non-blank and already
normalized. -/
theorem executes_stored_iff_plain (hnfc : Nfc dep.nfc)
    (h : Reachable free (World.initial memberships) cfg)
    (hcollision : Set.InjOn dep.sha256 (hashedCorpora dep cfg.world.db))
    {id v : Uuid} {run : Run} {version : CorpusVersion}
    (hrun : cfg.world.db.runs.lookup id = some run) (hnamed : run.corpusVersionId = some v)
    (hversion : cfg.world.db.corpusVersions.lookup v = some version) :
    ∃ sentences, executedSentences run.kind run.spec.request = some sentences ∧
      (sentences = storedSentences cfg.world.db v version ↔ Plain dep.nfc sentences) := by
  have hi := reachable_inv h
  obtain ⟨-, htraces⟩ := hi.lineage id run hrun v hnamed
  obtain ⟨language, sentences, corpus, prepared, hinline, hcorpus, hprepared, -, -, hdigest⟩ :=
    htraces version hversion
  obtain ⟨texts, hstored, -⟩ := hi.history.stored hnfc hversion
  have htexts := storedSentences_eq hstored
  obtain ⟨hprepare, -, -, hhash⟩ := prepareCorpus_ok hprepared
  -- equal digests of hashed encodings: the stored texts are the prepared ones
  have hsame : storedSentences cfg.world.db v version = prepared.sentences := by
    refine (canonicalCorpus_injective (hcollision (.inl ⟨v, version, hversion, rfl⟩)
      (.inr ⟨id, run, language, sentences, corpus, prepared, hrun, hinline, hcorpus, hprepared,
        rfl⟩) ?_)).2
    rw [← hhash, ← hdigest, hstored.digest, htexts]
  have hrequest : corpus.sentences = sentences := by
    unfold corpusImportRequest at hcorpus
    obtain ⟨code, -, rfl⟩ := Option.map_eq_some_iff.mp hcorpus
    rfl
  rw [hrequest] at hprepare
  refine ⟨sentences, executedSentences_of_inline hinline, ?_⟩
  rw [hsame, eq_comm]
  exact prepareSentences_same plain_nil hprepare

end Law

/-! ### Two linked runs -/

def evaluation (sentences : List String)
    (h : (1 ≤ sentences.length ∧ sentences.length ≤ 500) ∧ 2 ≤ "en".length ∧ "en".length ≤ 32) :
    RunSpec := ⟨5, .evaluate ⟨sentences, "en", h⟩⟩

/-- Run 3, an evaluation of version 2, the first of `sampleCorpus`. -/
def linkedRun (spec : RunSpec) : Option (Config Sample) :=
  sampleRun (sampleCorpus.take 9 ++
    .start (ServiceCall.submit ⟨"owner", 1, none⟩ ⟨0, .evaluate, some spec, some 2⟩ "key") ::
      acts Sample 3 9)

/-- The sentences of version 2 as they are stored. -/
def plainEvaluation : RunSpec := evaluation ["one two", "three"] (by decide)

/-- The same with a repetition and two blanks in a row. -/
def looseEvaluation : RunSpec := evaluation ["one  two", "three", "one two"] (by decide)

/-- The stored version and the run of a plain submission. -/
def linksPlain (cfg : Config Sample) : Bool :=
  (cfg.world.db.corpusVersions.rows.map fun e =>
    (e.1, e.2.language, storedSentences cfg.world.db e.1 e.2)) == [(2, "en", ["one two", "three"])] &&
  (cfg.world.db.runs.rows.map fun e =>
    (e.1, inlineCorpus e.2.kind e.2.spec.request)) == [(3, some ("en", ["one two", "three"]))]

def plainLinked : Sampled (linkedRun plainEvaluation) linksPlain := .of (by decide +kernel)

/-- Only one text has been hashed. -/
theorem plainEvaluation_hashed {cfg : Config Sample} (h : linkedRun plainEvaluation = some cfg)
    {x : List Char} (hx : x ∈ hashedCorpora .sample cfg.world.db) :
    x = canonicalCorpus "en" ["one two", "three"] := by
  have hlinks := plainLinked.checked
  rw [Option.some.inj (plainLinked.run.symm.trans h), linksPlain, Bool.and_eq_true, beq_iff_eq,
    beq_iff_eq] at hlinks
  obtain ⟨hversions, hruns⟩ := hlinks
  rcases hx with ⟨v, version, hversion, rfl⟩ |
    ⟨id, run, language, sentences, corpus, prepared, hrun, hinline, hcorpus, hprepared, rfl⟩
  · have hmem := List.mem_map_of_mem (f := fun e : Uuid × CorpusVersion =>
      (e.1, e.2.language, storedSentences cfg.world.db e.1 e.2)) (Table.mem_rows.mpr hversion)
    rw [hversions, List.mem_singleton] at hmem
    simp only [Prod.mk.injEq] at hmem
    rw [hmem.2.1, hmem.2.2]
  · have hmem := List.mem_map_of_mem (f := fun e : Uuid × Run =>
      (e.1, inlineCorpus e.2.kind e.2.spec.request)) (Table.mem_rows.mpr hrun)
    rw [hruns, List.mem_singleton] at hmem
    simp only [Prod.mk.injEq] at hmem
    rw [hmem.2, Option.some.injEq, Prod.mk.injEq] at hinline
    obtain ⟨rfl, rfl⟩ := hinline
    have hcode : corpusImportRequest "en" ["one two", "three"] = some ⟨"en", ["one two", "three"]⟩ := by
      decide +kernel
    rw [hcode] at hcorpus
    cases hcorpus
    have hout : (Deployment.sample.prepareInline ⟨"en", ["one two", "three"]⟩).toOption =
        some ⟨"en", ["one two", "three"],
          0x1f917a635cd7b131fe5848293931c37ff5a25acce373f6a1669c4fbe2c9e521e⟩ := by
      decide +kernel
    rw [hprepared] at hout
    cases hout
    rfl

theorem executes_stored_iff_plain_sample :
    ((linkedRun plainEvaluation).map fun cfg => (cfg.world.db.runs.keys,
      cfg.world.db.corpusVersions.keys)) = some ([3], [2]) ∧
    ∀ cfg, linkedRun plainEvaluation = some cfg → ∀ run version,
      cfg.world.db.runs.lookup 3 = some run → run.corpusVersionId = some 2 →
      cfg.world.db.corpusVersions.lookup 2 = some version →
      ∃ sentences, executedSentences run.kind run.spec.request = some sentences ∧
        (sentences = storedSentences cfg.world.db 2 version ↔ Plain (fun text => text) sentences) :=
  ⟨by decide +kernel, fun _ h _ _ hrun hnamed hversion =>
    executes_stored_iff_plain Nfc.ascii (run_reachable (M := Sample) h)
      (fun _ hx _ hy _ => (plainEvaluation_hashed h hx).trans (plainEvaluation_hashed h hy).symm)
      hrun hnamed hversion⟩

/-- The check admits sentences that are not the stored ones. -/
theorem executes_other_sentences :
    ¬ ∀ cfg : ServiceConfig .sample, Reachable free (World.initial smallMembers) cfg →
      ∀ id v run version sentences, cfg.world.db.runs.lookup id = some run →
        run.corpusVersionId = some v → cfg.world.db.corpusVersions.lookup v = some version →
        executedSentences run.kind run.spec.request = some sentences →
        sentences = storedSentences cfg.world.db v version := by
  intro hclaim
  have hrows : ((linkedRun looseEvaluation).map fun cfg => (
      (cfg.world.db.runs.lookup 3).map fun run => (run.corpusVersionId,
        executedSentences run.kind run.spec.request),
      (cfg.world.db.corpusVersions.lookup 2).map (storedSentences cfg.world.db 2))) =
      some (some (some 2, some ["one  two", "three", "one two"]), some ["one two", "three"]) := by
    decide +kernel
  obtain ⟨cfg, hcfg, hrows⟩ := Option.map_eq_some_iff.mp hrows
  rw [Prod.mk.injEq] at hrows
  obtain ⟨run, hrun, hspec⟩ := Option.map_eq_some_iff.mp hrows.1
  obtain ⟨version, hversion, hstored⟩ := Option.map_eq_some_iff.mp hrows.2
  rw [Prod.mk.injEq] at hspec
  have hsame := hclaim cfg (run_reachable (M := Sample) hcfg) 3 2 run version _ hrun hspec.1 hversion
    hspec.2
  rw [hstored] at hsame
  simp at hsame

end CorpusKit
