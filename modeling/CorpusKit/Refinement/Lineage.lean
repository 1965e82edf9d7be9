import CorpusKit.Persistence.Evolution
import CorpusKit.Refinement.Submissions

/-! # Runs linked to corpus versions

A run that names a corpus version was admitted because preparing its inline
corpus gives that version. Versions are never rewritten and a run keeps its
specification, so the link stays true; a replay inherits it. -/

namespace CorpusKit

open Transaction JobControlPlane

variable (prepare : CorpusImportRequest → Except Error PreparedCorpus)

/-- Preparing the inline corpus of the request gives the language, size and digest of the version. -/
def Traces (kind : RunKind) (request : RunRequest) (version : CorpusVersion) : Prop :=
  ∃ language sentences corpus prepared, inlineCorpus kind request = some (language, sentences) ∧
    corpusImportRequest language sentences = some corpus ∧ prepare corpus = .ok prepared ∧
    version.language = prepared.language ∧ version.sentenceCount = prepared.sentences.length ∧
    version.contentSha256 = prepared.contentSha256

/-- The version a run names, as long as it exists, is the one its inline corpus gives. -/
def Linked (db : Db) (run : Run) : Prop := ∀ v, run.corpusVersionId = some v →
  v < db.nextId ∧ ∀ version, db.corpusVersions.lookup v = some version →
    Traces prepare run.kind run.spec.request version

def Db.Lineage (db : Db) : Prop :=
  ∀ id run, db.runs.lookup id = some run → Linked prepare db run

variable {prepare} {db db' : Db} {run run' : Run}

theorem Linked.later (h : Linked prepare db run) (hl : db.Later db') : Linked prepare db' run := by
  intro v hv
  obtain ⟨hid, htraces⟩ := h v hv
  refine ⟨Nat.lt_of_lt_of_le hid hl.next, fun version hversion => ?_⟩
  obtain ⟨old, hold, rfl⟩ := hl.versions v version hversion hid
  exact htraces old hold

/-- The link reads the kind, the specification and the version of a run only. -/
theorem Linked.of_same (h : Linked prepare db run) (hkind : run'.kind = run.kind)
    (hspec : run'.spec = run.spec) (hversion : run'.corpusVersionId = run.corpusVersionId) :
    Linked prepare db run' := by
  unfold Linked
  rw [hkind, hspec, hversion]
  exact h

theorem Linked.row (h : Linked prepare db run) (hl : run.Later run') : Linked prepare db run' := by
  have hid := hl.identity
  exact h.of_same (by rw [hid]) (by rw [hid]) (by rw [hid])

theorem Db.lineage_initial (memberships : List Membership) :
    (Db.initial memberships).Lineage prepare := fun _ _ h => (Table.not_mem_empty h).elim

/-! ## Who adds runs -/

variable {permit : Permit}

/-- Only a submission adds runs. -/
theorem Change.runs_known (hc : Change permit db db') (hno : permit.submits = false) {id : Uuid}
    (h : db'.runs.lookup id = some run') : ∃ run, db.runs.lookup id = some run := by
  cases hc with
  | submit hpermit =>
    rw [hno] at hpermit
    cases hpermit
  | move hrun =>
    obtain ⟨rfl, -⟩ | ⟨-, hold⟩ := Table.lookup_insert_cases h
    · exact ⟨_, hrun⟩
    · exact ⟨_, hold⟩
  | finish hrun =>
    obtain ⟨rfl, -⟩ | ⟨-, hold⟩ := Table.lookup_insert_cases h
    · exact ⟨_, hrun⟩
    · exact ⟨_, hold⟩
  | adopt time mediaType schemaId hrun =>
    obtain ⟨rfl, -⟩ | ⟨-, hold⟩ := Table.lookup_insert_cases h
    · exact ⟨_, hrun⟩
    · exact ⟨_, hold⟩
  | note hrun =>
    obtain ⟨rfl, -⟩ | ⟨-, hold⟩ := Table.lookup_insert_cases h
    · exact ⟨_, hrun⟩
    · exact ⟨_, hold⟩
  | settle hrun =>
    obtain ⟨rfl, -⟩ | ⟨-, hold⟩ := Table.lookup_insert_cases h
    · exact ⟨_, hrun⟩
    · exact ⟨_, hold⟩
  | erase hpermit => exact ⟨_, (Table.lookup_deleteWhere.mp h).1⟩
  | _ => exact ⟨_, h⟩

theorem Changes.runs_known (hc : Changes permit db db') (hno : permit.submits = false) {id : Uuid}
    (h : db'.runs.lookup id = some run') : ∃ run, db.runs.lookup id = some run := by
  induction hc generalizing run' with
  | refl => exact ⟨run', h⟩
  | tail _ hstep ih =>
    obtain ⟨mid, hmid⟩ := hstep.runs_known hno h
    exact ih hmid

/-- Whatever happens to the runs there are keeps their links. -/
theorem Changes.lineage (hc : Changes permit db db') (hno : permit.submits = false) (hi : db.Inv)
    (h : db.Lineage prepare) : db'.Lineage prepare := by
  intro id run' hrun'
  obtain ⟨run, hrun⟩ := hc.runs_known hno hrun'
  obtain ⟨old, hold, hlater⟩ := hc.later.runs id run' hrun' (hi.log.fresh _ _ hrun)
  exact ((h _ _ hold).later hc.later).row hlater

/-- A new run brings its own link. -/
theorem Db.Lineage.enter (h : db.Lineage prepare) (hl : db.Later db') {id : Uuid}
    (hruns : db'.runs = db.runs.insert id run) (hrun : Linked prepare db run) :
    db'.Lineage prepare := by
  intro id' run' hrun'
  rw [hruns] at hrun'
  obtain ⟨-, rfl⟩ | ⟨-, hold⟩ := Table.lookup_insert_cases hrun'
  · exact hrun.later hl
  · exact (h _ _ hold).later hl

/-! ## What the check establishes -/

theorem versionInProject_some {organizationId projectId v : Uuid} {version : CorpusVersion}
    (h : Db.versionInProject db organizationId projectId v = some version) :
    db.corpusVersions.lookup v = some version := by
  unfold Db.versionInProject at h
  simp only [Option.bind_eq_bind, Option.bind_eq_some_iff] at h
  obtain ⟨row, hrow, corpus, -, h⟩ := h
  split at h
  · cases h
    exact hrow
  · cases h

theorem authorizeCorpusLineage_returns (hi : db.Inv) {s : NewSubmission} {u : Unit}
    (h : Returns (authorizeCorpusLineage prepare s) db u db') : Linked prepare db (queuedRun s) := by
  intro v hv
  have hnamed : s.corpusVersionId = some v := hv
  unfold authorizeCorpusLineage at h
  rw [hnamed] at h
  obtain ⟨⟨language, sentences⟩, t, hfound, h⟩ := h.bind
  obtain ⟨hinline, rfl⟩ := hfound.found
  obtain ⟨corpus, t, hfound, h⟩ := h.bind
  obtain ⟨hcorpus, rfl⟩ := hfound.found
  obtain ⟨prepared, t, hfound, h⟩ := h.bind
  obtain ⟨hprepared, rfl⟩ := hfound.found
  obtain ⟨a, t, hget, h⟩ := h.bind
  obtain ⟨rfl, rfl⟩ := hget.get
  obtain ⟨version, t, hfound, h⟩ := h.bind
  obtain ⟨hversion, rfl⟩ := hfound.found
  have hrow := versionInProject_some hversion
  obtain ⟨hsame, -⟩ := h.require
  refine ⟨hi.versions _ _ hrow, fun version' hversion' => ?_⟩
  rw [hrow] at hversion'
  cases hversion'
  refine ⟨language, sentences, corpus, prepared, hinline, hcorpus, ?_, hsame⟩
  cases hp : prepare corpus with
  | error e =>
    rw [hp] at hprepared
    cases hprepared
  | ok out =>
    rw [hp] at hprepared
    exact congrArg _ (Option.some.inj hprepared)

end CorpusKit
