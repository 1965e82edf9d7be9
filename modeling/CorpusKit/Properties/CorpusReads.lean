import CorpusKit.Properties.Corpora
import CorpusKit.Services.CorpusQueries
import CorpusKit.System.Chains

/-! # What readers of a corpus see

A version keeps its content until its project is erased, so pages that are read at
different moments, while anything else happens, are pages of one text. -/

namespace CorpusKit

open Transaction Interleaving

variable {dep : Deployment} {memberships : List Membership}

/-! ## Content stays -/

/-- Versions stay with their content, or go with their project. -/
structure Db.KeepsText (db db' : Db) : Prop where
  later : db.Later db'
  texts : ∀ {v n version}, v < db.nextId → db'.corpusVersions.lookup v = some version →
    db'.sentences.lookup (v, n) = db.sentences.lookup (v, n)
  stays : ∀ {v version corpus}, db.corpusVersions.lookup v = some version →
    db.corpora.lookup version.corpusId = some corpus → corpus.projectId < db.nextId →
    (db'.corpusVersions.lookup v = some version ∧
      db'.corpora.lookup version.corpusId = some corpus) ∨
    db'.projects.lookup corpus.projectId = none

section Keeps

variable {db db' : Db} {permit : Permit}

theorem Db.KeepsText.refl (db : Db) : db.KeepsText db where
  later := .refl db
  texts _ _ := rfl
  stays hv hcorpus _ := .inl ⟨hv, hcorpus⟩

theorem Db.KeepsText.trans {a b c : Db} (h : a.KeepsText b) (h' : b.KeepsText c) :
    a.KeepsText c where
  later := h.later.trans h'.later
  texts {v n version} hv hversion := by
    have hmid := Nat.lt_of_lt_of_le hv h.later.next
    obtain ⟨old, hold, -⟩ := h'.later.versions _ _ hversion hmid
    exact (h'.texts hmid hversion).trans (h.texts hv hold)
  stays {v version corpus} hv hcorpus hproject := by
    have hmid := Nat.lt_of_lt_of_le hproject h.later.next
    obtain ⟨hv', hcorpus'⟩ | hgone := h.stays hv hcorpus hproject
    · exact h'.stays hv' hcorpus' hmid
    · right
      cases hlookup : c.projects.lookup corpus.projectId with
      | none => rfl
      | some project =>
        obtain ⟨old, hold, -⟩ := h'.later.projects _ _ hlookup hmid
        rw [hgone] at hold
        cases hold

/-- A step that touches no corpus. -/
theorem Db.Later.keepsText (hl : db.Later db')
    (h : db'.corpusVersions = db.corpusVersions ∧ db'.corpora = db.corpora ∧
      db'.sentences = db.sentences) : db.KeepsText db' := by
  obtain ⟨hversions, hcorpora, hsentences⟩ := h
  refine ⟨hl, fun _ _ => by rw [hsentences], fun hv hcorpus _ => .inl ?_⟩
  rw [hversions, hcorpora]
  exact ⟨hv, hcorpus⟩

theorem Change.keepsText (hc : Change permit db db') (hi : db.Inv) : db.KeepsText db' := by
  have hl := hc.later
  cases hc with
  | corpus corpus hproject =>
    exact ⟨hl, fun _ _ => rfl, fun hv hcorpus _ => .inl ⟨hv, by
      rw [AList.lookup_insert_ne (Nat.ne_of_lt (hi.versioned hv))]
      exact hcorpus⟩⟩
  | version version texts hcorpus horg hproject hnext hcontent hcount hpolicy husage hroom =>
    refine ⟨hl, fun hv _ => lookup_insertSentences (.inl (Nat.ne_of_lt hv)),
      fun hv hcorpus _ => .inl ⟨?_, hcorpus⟩⟩
    rw [AList.lookup_insert_ne (Nat.ne_of_lt (hi.versions _ _ hv))]
    exact hv
  | @erase org projectId project usages hpermit hproject horg hdead hready husages =>
    refine ⟨hl, fun {v n version} _ hversion => ?_, fun {v version corpus} hv hcorpus _ => ?_⟩
    · obtain ⟨-, hother⟩ := Table.lookup_deleteWhere.mp hversion
      dsimp only [ProjectDeletion.eraseRows]
      cases hsentence : db.sentences.lookup (v, n) with
      | none =>
        cases hkept : (db.sentences.deleteWhere _).lookup (v, n) with
        | none => rfl
        | some s =>
          obtain ⟨hold, -⟩ := Table.lookup_deleteWhere.mp hkept
          rw [hsentence] at hold
          cases hold
      | some s => exact Table.lookup_deleteWhere.mpr ⟨hsentence, by rw [hother, Bool.and_false]⟩
    · by_cases hmine : (corpus.organizationId == org && corpus.projectId == projectId) = true
      · right
        rw [Bool.and_eq_true, beq_iff_eq, beq_iff_eq] at hmine
        rw [hmine.2]
        exact AList.lookup_erase _ _
      · left
        rw [Bool.not_eq_true] at hmine
        refine ⟨Table.lookup_deleteWhere.mpr ⟨hv, ?_⟩, Table.lookup_deleteWhere.mpr ⟨hcorpus, hmine⟩⟩
        unfold ProjectDeletion.inProject
        rw [hv]
        dsimp only
        rw [hcorpus, Option.any_some, hmine, Bool.and_false]
  | _ => exact hl.keepsText ⟨rfl, rfl, rfl⟩

theorem keepsText_composes : Composes Db.KeepsText where
  refl := .refl
  trans := .trans
  change := Change.keepsText

/-- Kept rows hold the same texts. -/
theorem Db.KeepsText.holds (h : db.KeepsText db') {v org : Uuid} {version : CorpusVersion}
    {texts : List String} (hv : v < db.nextId) (hversion : db'.corpusVersions.lookup v = some version)
    (hholds : Holds db.sentences v org texts) : Holds db'.sentences v org texts := fun n => by
  rw [h.texts hv hversion]
  exact hholds n

end Keeps

/-! ## Reads -/

/-- Every page anyone reads of the version is a page of these texts, and an export has all. -/
structure Db.Reads (db : Db) (v : Uuid) (version : CorpusVersion) (texts : List String) : Prop where
  page : ∀ who projectId corpusId offset limit page db',
    Returns (ProjectWorkspace.listSentences who projectId corpusId v offset limit) db page db' →
      page = ((sentenceRows v version.organizationId texts).drop offset).take limit
  exported : ∀ who projectId corpusId corpus found sentences db',
    Returns (ProjectWorkspace.exportVersion who projectId corpusId v) db (corpus, found, sentences)
        db' →
      found = version ∧ sentences = sentenceRows v version.organizationId texts

namespace ProjectWorkspace

variable {db db' : Db} {org projectId corpusId v : Uuid}

theorem getVersion_returns {operation : String} {version : CorpusVersion}
    (h : Returns (getVersion org projectId corpusId v operation) db version db') :
    db.corpusVersions.lookup v = some version ∧ version.organizationId = org ∧ db = db' := by
  unfold getVersion at h
  obtain ⟨a, s, hget, h⟩ := h.bind
  obtain ⟨rfl, rfl⟩ := hget.get
  obtain ⟨hrow, rfl⟩ := h.found
  obtain ⟨hlookup, hmatch⟩ := Option.filter_eq_some_iff.mp hrow
  simp only [Bool.and_eq_true, beq_iff_eq] at hmatch
  exact ⟨hlookup, hmatch.1.1.1, rfl⟩

theorem requireCorpus_returns {operation : String} {corpus : Corpus}
    (h : Returns (requireCorpus org projectId corpusId operation) db corpus db') : db = db' := by
  unfold requireCorpus at h
  obtain ⟨a, s, hget, h⟩ := h.bind
  obtain ⟨rfl, rfl⟩ := hget.get
  exact h.found.2

variable {version : CorpusVersion} {texts : List String}

theorem sentencePage_returns {offset limit : Nat} {page : List ((Uuid × Nat) × Sentence)}
    (hv : db.corpusVersions.lookup v = some version)
    (hholds : Holds db.sentences v version.organizationId texts)
    (h : Returns (sentencePage org projectId corpusId v offset limit) db page db') :
    page = ((sentenceRows v version.organizationId texts).drop offset).take limit := by
  unfold sentencePage at h
  obtain ⟨found, s, hfound, h⟩ := h.bind
  obtain ⟨hlookup, rfl, rfl⟩ := getVersion_returns hfound
  rw [hv, Option.some.injEq] at hlookup
  subst hlookup
  obtain ⟨a, s, hget, h⟩ := h.bind
  obtain ⟨rfl, rfl⟩ := hget.get
  obtain ⟨rfl, -⟩ := h.pure
  rw [versionSentences_eq hholds]

end ProjectWorkspace

theorem Db.reads {db : Db} {v : Uuid} {version : CorpusVersion} {texts : List String}
    (hv : db.corpusVersions.lookup v = some version)
    (hholds : Holds db.sentences v version.organizationId texts)
    (hcount : texts.length = version.sentenceCount) : db.Reads v version texts where
  page who projectId corpusId offset limit page db' h := by
    obtain ⟨actor, s, hactor, h⟩ := Returns.bind h
    obtain rfl := ProjectWorkspace.actor_returns hactor
    exact ProjectWorkspace.sentencePage_returns hv hholds h
  exported who projectId corpusId corpus found sentences db' h := by
    obtain ⟨actor, s, hactor, h⟩ := Returns.bind h
    obtain rfl := ProjectWorkspace.actor_returns hactor
    obtain ⟨row, s, hcorpus, h⟩ := h.bind
    obtain rfl := ProjectWorkspace.requireCorpus_returns hcorpus
    obtain ⟨row, s, hfound, h⟩ := h.bind
    obtain ⟨hlookup, -, rfl⟩ := ProjectWorkspace.getVersion_returns hfound
    rw [hv, Option.some.injEq] at hlookup
    subst hlookup
    obtain ⟨page, s, hpage, h⟩ := h.bind
    obtain ⟨heq, -⟩ := h.pure
    cases heq
    have hall := ProjectWorkspace.sentencePage_returns hv hholds hpage
    refine ⟨rfl, hall.trans ?_⟩
    rw [List.drop_zero, ← hcount]
    exact List.take_of_length_le (by rw [sentenceRows, List.length_map, List.length_zipIdx])

/-- **Content is fixed.** Whatever happens on a run from here on: while its project is there, a
version is there unchanged, and what is read of it then, in pages or as an export, and what is read
of it now are pages of the same texts, the prepared ones that its digest is of. -/
theorem corpus_content_fixed {cfg cfg' : ServiceConfig dep}
    (h : Reachable (M := system dep (services dep)) free (World.initial memberships) cfg)
    (hrun : Relation.ReflTransGen (Step free) cfg cfg') {v : Uuid} {version : CorpusVersion}
    (hv : cfg.world.db.corpusVersions.lookup v = some version) :
    ∃ corpus texts, cfg.world.db.corpora.lookup version.corpusId = some corpus ∧
      Prepared dep ⟨version.language, texts, version.contentSha256⟩ ∧
      cfg.world.db.Reads v version texts ∧
      (cfg'.world.db.projects.lookup corpus.projectId = none ∨
        cfg'.world.db.corpusVersions.lookup v = some version ∧
          cfg'.world.db.Reads v version texts) := by
  have hi := reachable_inv h
  obtain ⟨corpus, hcorpus, -⟩ := hi.history.located hv
  obtain ⟨texts, hholds, hcount, hprepared⟩ := hi.history.content hv
  have hkeeps := keepsText_composes.run h hrun
  obtain ⟨project, hproject, -⟩ := hi.lifecycle.corpora hcorpus
  have hknown := hi.db.projects _ _ hproject
  refine ⟨corpus, texts, hcorpus, hprepared, Db.reads hv hholds hcount, ?_⟩
  obtain ⟨hv', -⟩ | hgone := hkeeps.stays hv hcorpus hknown
  · exact .inr ⟨hv', Db.reads hv' (hkeeps.holds (hi.db.versions _ _ hv) hv' hholds) hcount⟩
  · exact .inl hgone

/-- Call 4 adds a third version. -/
def sampleGrowth : List (Move Sample) :=
  .start (ServiceCall.createVersion sampleOwner 0 1 ⟨"en", ["five", "six"]⟩ "create_corpus_version") ::
    acts Sample 4 3

/-- Version 2 is there before the schedule; version 4 and the project are there after it. -/
def growsCorpus (cfg : Config Sample) : Bool :=
  (run cfg sampleGrowth).any fun cfg' =>
  (cfg.world.db.corpusVersions.lookup 2).any fun version =>
    (cfg.world.db.corpora.lookup version.corpusId).any fun corpus =>
      version.sentenceCount == 2 && (cfg'.world.db.corpusVersions.lookup 4).isSome &&
        (cfg'.world.db.projects.lookup corpus.projectId).isSome

def grownCorpus : Sampled (sampleRun sampleCorpus) growsCorpus := .of (by decide +kernel)

theorem corpus_content_fixed_sample :
    ∃ cfg cfg' version texts, sampleRun sampleCorpus = some cfg ∧ run cfg sampleGrowth = some cfg' ∧
      cfg.world.db.corpusVersions.lookup 2 = some version ∧ version.sentenceCount = 2 ∧
      cfg'.world.db.corpusVersions.lookup 4 ≠ none ∧
      cfg.world.db.Reads 2 version texts ∧ cfg'.world.db.Reads 2 version texts := by
  obtain ⟨cfg', hcfg', hgrown⟩ := (Option.any_eq_true _ _).mp grownCorpus.checked
  obtain ⟨version, hversion, hgrown⟩ := (Option.any_eq_true _ _).mp hgrown
  obtain ⟨corpus, hcorpus, hgrown⟩ := (Option.any_eq_true _ _).mp hgrown
  simp only [Bool.and_eq_true, beq_iff_eq] at hgrown
  obtain ⟨⟨hcount, hnew⟩, hproject⟩ := hgrown
  obtain ⟨owner, texts, howner, -, hreads, hgone | ⟨-, hreads'⟩⟩ :=
    corpus_content_fixed (run_reachable (M := Sample) grownCorpus.run) (run_steps hcfg') hversion
  · rw [hcorpus, Option.some.injEq] at howner
    rw [howner, hgone] at hproject
    cases hproject
  · exact ⟨grownCorpus.cfg, cfg', version, texts, grownCorpus.run, hcfg', hversion, hcount,
      Option.isSome_iff_ne_none.mp hnew, hreads, hreads'⟩

end CorpusKit
