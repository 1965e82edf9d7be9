import CorpusKit.Domain.Corpora

/-! # Accepted candidates of a repository run

The adapter keeps the source ids of the engine's pool beside it, gives each ranked
candidate its id back and takes an accepted one out of both lists. What is accepted
is described to the progress callback, and once more for the result. -/

namespace CorpusKit.Repository

/-- An entry of the engine's pool, and the key candidates are told by. -/
structure Entry where
  text : String
  phonemes : List String
  deriving DecidableEq

/-- A candidate as the engine hands it to the scorer. -/
structure Candidate where
  key : Entry
  sourceId : Option String
  deriving DecidableEq

/-- A row of `accepted`. -/
structure Row where
  sourceId : String
  key : Entry
  coverageGain : Int
  deriving DecidableEq

structure AcceptedCandidate where
  sourceId : String
  key : Entry
  iteration : Int
  coverageGain : Int
  deriving DecidableEq

/-- The adapter's objects during one run, with what the callback was given. -/
structure State where
  pool : List Entry
  sourceIds : List String
  rankedSources : List (Entry × String)
  acceptedIds : List String
  accepted : List Row
  streamed : List (AcceptedCandidate × Rat)

/-! ## The candidate's model -/

def maxSourceIdCharacters : Nat := 192
def maxSentenceCharacters : Nat := 4000
def maxPhonemesPerSentence : Nat := 1000
def maxPhonemeCharacters : Nat := 64

/-- `_SAFE_SOURCE_ID`. -/
def isSafeSourceId (sourceId : List Char) : Bool :=
  match sourceId with
  | [] => false
  | c :: rest => c.isAlphanum && decide (rest.length < maxSourceIdCharacters) &&
      rest.all fun d => d.isAlphanum || ['.', '_', ':', '@', '/', '+', '-'].contains d

def isBlank (text : String) : Bool := (strip text.toList).isEmpty

def AcceptedCandidate.valid (candidate : AcceptedCandidate) : Bool :=
  decide (1 ≤ candidate.iteration) && decide (1 ≤ candidate.coverageGain) &&
    isSafeSourceId candidate.sourceId.toList && !isBlank candidate.key.text &&
    decide (candidate.key.text.length ≤ maxSentenceCharacters) &&
    decide (1 ≤ candidate.key.phonemes.length) &&
    decide (candidate.key.phonemes.length ≤ maxPhonemesPerSentence) &&
    candidate.key.phonemes.all fun phoneme =>
      !isBlank phoneme && decide (phoneme.length ≤ maxPhonemeCharacters)

def Row.describe (row : Row) (iteration : Int) : AcceptedCandidate :=
  { sourceId := row.sourceId, key := row.key, iteration := iteration
    coverageGain := row.coverageGain }

/-! ## Calls of the engine -/

/-- `_SourceRepository.generate`: the engine's candidates, each with its source id. -/
def generate (s : State) (candidates : List (Option Int × Entry)) :
    Except Error (List Candidate) :=
  candidates.mapM fun candidate =>
    match candidate.1 with
    | none => .error (.engineContract "generation.repository.generate")
    | some poolIndex =>
      if 0 ≤ poolIndex ∧ poolIndex < s.sourceIds.length then
        .ok ⟨candidate.2, s.sourceIds[poolIndex.toNat]?⟩
      else .error (.engineContract "generation.repository.generate")

/-- The loop of `rank` over the engine's results: each takes the first source left with
its key. -/
def rankSources : List (Entry × String) → List Entry → Option (List (Entry × String))
  | _, [] => some []
  | lookup, key :: ranked =>
    match lookup.find? fun source => source.1 = key with
    | none => none
    | some source =>
      (rankSources (lookup.eraseP fun source => source.1 = key) ranked).map (source :: ·)

/-- The pairs `rank` looks sources up in, none for a candidate it refuses. -/
def rankLookup (acceptedIds : List String) : List Candidate → Option (List (Entry × String))
  | [] => some []
  | candidate :: candidates =>
    match candidate.sourceId with
    | none => none
    | some sourceId =>
      if sourceId ∈ acceptedIds then none
      else (rankLookup acceptedIds candidates).map ((candidate.key, sourceId) :: ·)

/-- `_SourceAwareScorer.rank`, where the engine's scorer ranks as told. -/
def rank (s : State) (candidates : List Candidate) (ranked : List Entry) : Except Error State :=
  match rankLookup s.acceptedIds candidates with
  | none => .error (.engineContract "generation.score.rank")
  | some lookup =>
    match rankSources lookup ranked with
    | none => .error (.engineContract "generation.score.rank")
    | some rankedSources => .ok { s with rankedSources := rankedSources }

/-- `mark_source_used`; the engine's `mark_used` removes the entry at the index. -/
def markSourceUsed (s : State) (sourceId : String) : Except Error State :=
  if sourceId ∈ s.sourceIds then
    let poolIndex := s.sourceIds.idxOf sourceId
    .ok { s with
      pool := s.pool.eraseIdx poolIndex
      sourceIds := s.sourceIds.eraseIdx poolIndex }
  else .error (.engineContract "generation.repository.commit")

/-- `score_and_commit`, where the engine's scorer finds the gain. -/
def scoreAndCommit (s : State) (key : Entry) (coverageGain : Int) : Except Error State :=
  match s.rankedSources.find? fun source => source.1 = key ∧ source.2 ∉ s.acceptedIds with
  | none => .error (.engineContract "generation.score.commit")
  | some source =>
    if coverageGain ≤ 0 then .error (.engineContract "generation.score.commit")
    else (markSourceUsed s source.2).map fun s =>
      { s with
        acceptedIds := s.acceptedIds ++ [source.2]
        accepted := s.accepted ++ [⟨source.2, key, coverageGain⟩] }

/-- `progress_callback`; numbers it does not take are none. -/
def progressCallback (s : State) (iteration : Option Int) (coverage : Option Rat) :
    Except Error State :=
  match s.accepted.getLast?, iteration, coverage with
  | some row, some iteration, some coverage =>
    if (row.describe iteration).valid then
      .ok { s with streamed := s.streamed ++ [(row.describe iteration, coverage)] }
    else .error (.invalidRequest "generation.repository.run")
  | _, _, _ => .error (.engineContract "generation.progress")

inductive Call
  | generate (candidates : List (Option Int × Entry))
  | rank (candidates : List Candidate) (ranked : List Entry)
  | commit (key : Entry) (coverageGain : Int)
  | progress (iteration : Option Int) (coverage : Option Rat)

def step (s : State) : Call → Except Error State
  | .generate candidates => (generate s candidates).map fun _ => s
  | .rank candidates ranked => rank s candidates ranked
  | .commit key coverageGain => scoreAndCommit s key coverageGain
  | .progress iteration coverage => progressCallback s iteration coverage

/-- An engine run up to its end, whichever calls it makes; an error ends it. -/
def run (s : State) : List Call → Except Error State
  | [] => .ok s
  | call :: calls =>
    match step s call with
    | .error e => .error e
    | .ok s => run s calls

/-- The objects before the run. -/
def prepare (pool : List Entry) (sourceIds : List String) : Except Error State :=
  if pool.length ≠ sourceIds.length then .error (.engineContract "generation.repository.prepare")
  else .ok ⟨pool, sourceIds, [], [], [], []⟩

/-- The accepted candidates of `_normalize_result`, numbered from one. -/
def normalizeAccepted (rows : List Row) : Except Error (List AcceptedCandidate) :=
  let accepted := (rows.zipIdx 1).map fun (row, index) => row.describe index
  if !accepted.all AcceptedCandidate.valid then .error (.engineContract "generation.repository.result")
  else if (accepted.map AcceptedCandidate.sourceId).dedup.length ≠ accepted.length then
    .error (.engineContract "generation.repository.result")
  else .ok accepted

end CorpusKit.Repository
