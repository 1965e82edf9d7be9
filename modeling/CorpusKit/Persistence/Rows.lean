import CorpusKit.Persistence.Changes

/-! # Rows only go with their project

No change of the database removes a row of a project, except the erasure of the
project. -/

namespace CorpusKit

/-- No row of any table that holds a project's data goes. -/
structure Db.Keeps (db db' : Db) : Prop where
  projects : db.projects.Extends db'.projects
  corpora : db.corpora.Extends db'.corpora
  versions : db.corpusVersions.Extends db'.corpusVersions
  sentences : db.sentences.Extends db'.sentences
  runs : db.runs.Extends db'.runs
  events : db.runEvents.Extends db'.runEvents
  messages : db.outboxMessages.Extends db'.outboxMessages
  artifacts : db.artifacts.Extends db'.artifacts
  publications : db.datgIndexPublications.Extends db'.datgIndexPublications
  facts : db.runExecutionFacts.Extends db'.runExecutionFacts
  replays : db.runReplays.Extends db'.runReplays
  reservations : db.quotaReservations.Extends db'.quotaReservations

theorem Db.Keeps.refl (db : Db) : db.Keeps db := by constructor <;> exact .refl _

theorem Db.Keeps.trans {a b c : Db} (h : a.Keeps b) (h' : b.Keeps c) : a.Keeps c where
  projects := h.projects.trans h'.projects
  corpora := h.corpora.trans h'.corpora
  versions := h.versions.trans h'.versions
  sentences := h.sentences.trans h'.sentences
  runs := h.runs.trans h'.runs
  events := h.events.trans h'.events
  messages := h.messages.trans h'.messages
  artifacts := h.artifacts.trans h'.artifacts
  publications := h.publications.trans h'.publications
  facts := h.facts.trans h'.facts
  replays := h.replays.trans h'.replays
  reservations := h.reservations.trans h'.reservations

theorem insertSentences_extends (org versionId : Uuid) (ordinal : Nat) (texts : List String)
    (sentences : Table (Uuid × Nat) Sentence) :
    sentences.Extends (ProjectWorkspace.insertSentences org versionId ordinal texts sentences) := by
  induction texts generalizing ordinal sentences with
  | nil => exact .refl _
  | cons text texts ih => exact Table.Extends.insert.trans (ih _ _)

variable {permit : Permit} {db db' : Db}

theorem Change.keeps (hc : Change permit db db') (hpermit : permit.erases = false) :
    db.Keeps db' := by
  have hself := Db.Keeps.refl db
  cases hc with
  | evidence event hhead hfree hplain => exact { hself with runs := hself.runs }
  | id => exact { hself with runs := hself.runs }
  | move hrun hmove hlive hask hfree horg hevent =>
    exact { hself with runs := .insert, events := .insert }
  | finish hrun hmove hend hcancel hask hfree horg hevent hres hown hactive hending husage =>
    exact { hself with runs := .insert, events := .insert, reservations := .insert }
  | adopt time mediaType schemaId hrun =>
    exact { hself with
      runs := .insert, events := .insert, reservations := .insert, artifacts := .insert }
  | note hrun hstate hfree horg hevent => exact { hself with runs := .insert, events := .insert }
  | settle hrun hstate => exact { hself with runs := .insert }
  | renew hres => exact { hself with reservations := .insert }
  | submit hsubmits hproject =>
    exact { hself with
      runs := .insert, events := .insert, reservations := .insert, messages := .insert }
  | lineage replay hid hfree => exact { hself with replays := .insert }
  | observe manifest hreplay => exact { hself with replays := .insert }
  | record facts hfree => exact { hself with facts := .insert }
  | manifest artifactId sha256 hfacts => exact { hself with facts := .insert }
  | store artifact hproject => exact { hself with artifacts := .insert }
  | tombstone hretires hrow hactive => exact { hself with artifacts := .insert }
  | discard hretires hrow hdead husage => exact { hself with artifacts := .insert }
  | publish publication hfree => exact { hself with publications := .insert }
  | intent message hrun horg hpending hnew htype => exact { hself with messages := .insert }
  | claim workerId now expired hrow hclaim => exact { hself with messages := .insert }
  | acknowledge now hrow hclaimed => exact { hself with messages := .insert }
  | release availableAt hrow hclaimed => exact { hself with messages := .insert }
  | project project hactive => exact { hself with projects := .insert }
  | corpus corpus hproject => exact { hself with corpora := .insert }
  | version version texts hcorpus =>
    exact { hself with versions := .insert, sentences := insertSentences_extends _ _ _ _ _ }
  | schedule hretires hproject horg hactive hquiet =>
    exact { hself with artifacts := .mapRows, projects := .insert }
  | erase herases => rw [hpermit] at herases; cases herases
  | policy hreplaces hfree hpolicy husage hbounds hruns => exact { hself with runs := hself.runs }
  | provision org => exact { hself with runs := hself.runs }

theorem Changes.keeps (hc : Changes permit db db') (hpermit : permit.erases = false) :
    db.Keeps db' := by
  induction hc with
  | refl => exact .refl db
  | tail _ hstep ih => exact ih.trans (hstep.keeps hpermit)

end CorpusKit
