import CorpusKit.Services.Projects
import CorpusKit.Services.Reproducibility

/-! # Reading corpora

The reads of a version through its whole ownership: a page of its sentences, and what
an export encodes. -/

namespace CorpusKit.ProjectWorkspace

open Transaction

/-- `ProjectService._require_corpus`. -/
def requireCorpus (organizationId projectId corpusId : Uuid) (operation : String) : DbTx Corpus := do
  let db ← get
  let corpus ← found ((db.corpora.lookup corpusId).filter fun corpus =>
      corpus.organizationId == organizationId && corpus.projectId == projectId &&
        db.activeProject organizationId projectId)
    (.resourceNotFound operation)
  pure corpus

/-- `ProjectService.get_version`. -/
def getVersion (organizationId projectId corpusId versionId : Uuid) (operation : String) :
    DbTx CorpusVersion := do
  let db ← get
  let version ← found ((db.corpusVersions.lookup versionId).filter fun version =>
      version.organizationId == organizationId && version.corpusId == corpusId &&
        (db.corpora.lookup corpusId).any (fun corpus =>
          corpus.organizationId == organizationId && corpus.projectId == projectId) &&
        db.activeProject organizationId projectId)
    (.resourceNotFound operation)
  pure version

/-- `ProjectService.list_sentences`. -/
def sentencePage (organizationId projectId corpusId versionId : Uuid) (offset limit : Nat) :
    DbTx (List ((Uuid × Nat) × Sentence)) := do
  let _ ← getVersion organizationId projectId corpusId versionId "list_sentences"
  let db ← get
  pure (((RunManifestService.versionSentences db organizationId versionId).drop offset).take limit)

def listSentences (who : WorkspaceActor) (projectId corpusId versionId : Uuid)
    (offset limit : Nat) : DbTx (List ((Uuid × Nat) × Sentence)) := do
  let _ ← actor who
  sentencePage who.organizationId projectId corpusId versionId offset limit

/-- What `export_version` reads. -/
def exportVersion (who : WorkspaceActor) (projectId corpusId versionId : Uuid) :
    DbTx (Corpus × CorpusVersion × List ((Uuid × Nat) × Sentence)) := do
  let _ ← actor who
  let corpus ← requireCorpus who.organizationId projectId corpusId "corpus.export"
  let version ← getVersion who.organizationId projectId corpusId versionId "corpus.export"
  let sentences ←
    sentencePage who.organizationId projectId corpusId versionId 0 version.sentenceCount
  pure (corpus, version, sentences)

end CorpusKit.ProjectWorkspace
