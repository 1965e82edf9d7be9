import CorpusKit.Services.Exports

/-! # Identities of generated candidates

Both adapters name a candidate by the digest of its text and its phonemes, joined by
NUL characters. The model runtime drops what it has already seen by that name; the
guided generation drops equal candidates and names the rest. -/

namespace CorpusKit.Candidates

/-- A candidate as a backend returns it, without the fields that pass through. -/
structure RawCandidate where
  text : List Char
  phonemes : List (List Char)
  deriving DecidableEq

/-- A candidate with its source id. -/
structure NamedCandidate where
  sourceId : List Char
  candidate : RawCandidate
  deriving DecidableEq

def nul : Char := Char.ofNat 0

/-- The characters kept of a hexadecimal digest. -/
def identityCharacters : Nat := 48

section

-- `hexdigest` of the bytes
variable (sha256 : List UInt8 → List Char)

/-! ## Model runtime -/

/-- What `_candidate_id` digests. -/
def runtimeText («namespace» : List Char) (candidate : RawCandidate) : List Char :=
  «namespace» ++ nul :: (candidate.text ++ nul :: Words.join nul candidate.phonemes)

/-- `_candidate_id`. -/
def candidateId («namespace» : List Char) (candidate : RawCandidate) : List Char :=
  "generated:".toList ++
    (sha256 (encodeUtf8 (runtimeText «namespace» candidate))).take identityCharacters

def isCandidate (candidate : RawCandidate) : Bool :=
  !(strip candidate.text).isEmpty && !candidate.phonemes.isEmpty &&
    candidate.phonemes.all fun phoneme => !phoneme.isEmpty

/-- The loop of `_DeduplicatingBackend.generate`, with the identities seen after it. -/
def unique («namespace» : List Char) (seen : List (List Char)) :
    List RawCandidate → Except Error (List NamedCandidate) × List (List Char)
  | [] => (.ok [], seen)
  | candidate :: candidates =>
    if !isCandidate candidate then (.error (.engineContract "model_runtime.generation.candidate"), seen)
    else
      let identity := candidateId sha256 «namespace» candidate
      if identity ∈ seen then unique «namespace» seen candidates
      else
        let (rest, seen) := unique «namespace» (identity :: seen) candidates
        (rest.map (⟨identity, candidate⟩ :: ·), seen)

/-- `_DeduplicatingBackend.generate` on what its backend returned. -/
def generate («namespace» : List Char) (seen : List (List Char)) (candidates : List RawCandidate) :
    Except Error (List NamedCandidate) × List (List Char) :=
  if candidates.isEmpty then (.error (.engineUnavailable "model_runtime.generation.empty_response"), seen)
  else unique sha256 «namespace» seen candidates

/-! ## Guided generation -/

def maxTextCharacters : Nat := 4000
def maxSequencePhonemes : Nat := 1000
def maxPhonemeCharacters : Nat := 64

def isRawCandidate (candidate : RawCandidate) : Bool :=
  !(strip candidate.text).isEmpty && decide (candidate.text.length ≤ maxTextCharacters) &&
    !candidate.phonemes.isEmpty && decide (candidate.phonemes.length ≤ maxSequencePhonemes) &&
    candidate.phonemes.all fun phoneme =>
      !(strip phoneme).isEmpty && decide (phoneme.length ≤ maxPhonemeCharacters)

/-- `_raw_candidates`. -/
def rawCandidates (raw : List RawCandidate) : Except Error (List RawCandidate) :=
  if raw.all isRawCandidate then
    .ok (raw.map fun candidate => { candidate with text := strip candidate.text })
  else .error (.engineContract "datg.generation.candidates")

/-- What `_generated_candidates` digests. -/
def datgText (candidate : RawCandidate) : List Char :=
  candidate.text ++ nul :: Words.join nul candidate.phonemes

def datgSourceId (candidate : RawCandidate) : List Char :=
  "datg:".toList ++ (sha256 (encodeUtf8 (datgText candidate))).take identityCharacters

/-- The loop of `_generated_candidates`. -/
def distinct (seen : List RawCandidate) : List RawCandidate → List NamedCandidate
  | [] => []
  | item :: raw =>
    let key : RawCandidate := { item with text := strip item.text }
    if key ∈ seen then distinct seen raw
    else ⟨datgSourceId sha256 key, key⟩ :: distinct (key :: seen) raw

/-- `_generated_candidates`, of candidates that passed `_raw_candidates`. -/
def generatedCandidates (raw : List RawCandidate) : Except Error (List NamedCandidate) :=
  match distinct sha256 [] raw with
  | [] => .error (.engineContract "datg.generation.empty")
  | candidates => .ok candidates

end

end CorpusKit.Candidates
