import CorpusKit.Adapters.Candidates
import CorpusKit.Properties.CorpusFiles

/-! # Candidates told apart by their names

The digested text is a candidate's pieces between NUL characters. Two candidates with
the same pieces share their name, so names are faithful where the pieces are. -/

namespace CorpusKit.Candidates

variable {sha256 : List UInt8 → List Char} {«namespace» : List Char} {c c' : RawCandidate}

/-! ## Pieces -/

def isNul (c : Char) : Bool := c == nul

/-- The pieces a candidate's text and phonemes are cut into at NUL. -/
def RawCandidate.pieces (c : RawCandidate) : List (List Char) :=
  (c.text :: c.phonemes).flatMap fun word => word.splitOnP isNul

def RawCandidate.NulFree (c : RawCandidate) : Prop :=
  ∀ word ∈ c.text :: c.phonemes, ∀ d ∈ word, isNul d = false

theorem splitOnP_join : ∀ {words : List (List Char)}, words ≠ [] →
    (Words.join nul words).splitOnP isNul = words.flatMap fun word => word.splitOnP isNul
  | [], h => absurd rfl h
  | [word], _ => by
    rw [Words.join, List.flatMap_singleton]
  | word :: next :: words, _ => by
    rw [Words.join, List.splitOnP_append_cons _ _ rfl, splitOnP_join (List.cons_ne_nil next words)]
    rfl

theorem join_splitOnP (text : List Char) : Words.join nul (text.splitOnP isNul) = text := by
  induction text with
  | nil => rfl
  | cons d text ih =>
    obtain ⟨first, rest, hsplit⟩ := List.exists_cons_of_ne_nil (List.splitOnP_ne_nil isNul text)
    rw [List.splitOnP_cons_eq_if_modifyHead]
    split
    · next hd =>
      rw [hsplit, Words.join, ← hsplit, ih, beq_iff_eq.mp hd]
      rfl
    · rw [hsplit, List.modifyHead_cons]
      rw [hsplit] at ih
      cases rest with
      | nil =>
        rw [Words.join] at ih ⊢
        rw [ih]
      | cons next rest =>
        rw [Words.join] at ih ⊢
        rw [← ih]
        rfl

/-- A text is told by its pieces. -/
theorem splitOnP_injective {text text' : List Char}
    (h : text.splitOnP isNul = text'.splitOnP isNul) : text = text' := by
  rw [← join_splitOnP text, h, join_splitOnP]

theorem splitOnP_datgText (h : c.phonemes ≠ []) : (datgText c).splitOnP isNul = c.pieces := by
  rw [datgText, List.splitOnP_append_cons _ _ rfl, splitOnP_join h, RawCandidate.pieces,
    List.flatMap_cons]

/-- Two candidates are digested alike exactly when their pieces agree. -/
theorem datgText_eq_iff (h : c.phonemes ≠ []) (h' : c'.phonemes ≠ []) :
    datgText c = datgText c' ↔ c.pieces = c'.pieces := by
  rw [← splitOnP_datgText h, ← splitOnP_datgText h']
  exact ⟨fun heq => by rw [heq], splitOnP_injective⟩

theorem runtimeText_eq_iff (h : c.phonemes ≠ []) (h' : c'.phonemes ≠ []) :
    runtimeText «namespace» c = runtimeText «namespace» c' ↔ c.pieces = c'.pieces := by
  rw [← datgText_eq_iff h h', runtimeText, runtimeText, List.append_cancel_left_eq,
    List.cons.injEq, eq_self_iff_true, true_and]
  rfl

theorem RawCandidate.NulFree.pieces (h : c.NulFree) : c.pieces = c.text :: c.phonemes := by
  have hwords : ∀ words : List (List Char), (∀ word ∈ words, ∀ d ∈ word, isNul d = false) →
      (words.flatMap fun word => word.splitOnP isNul) = words := by
    intro words hfree
    induction words with
    | nil => rfl
    | cons word words ih =>
      rw [List.flatMap_cons, List.splitOnP_eq_singleton (hfree word List.mem_cons_self),
        ih fun other hother => hfree other (List.mem_cons_of_mem word hother)]
      rfl
  exact hwords _ h

theorem pieces_faithful_of_nulFree (h : c.NulFree) (h' : c'.NulFree)
    (hpieces : c.pieces = c'.pieces) : c.text = c'.text ∧ c.phonemes = c'.phonemes := by
  rw [h.pieces, h'.pieces, List.cons.injEq] at hpieces
  exact hpieces

/-! ## Names -/

/-- The digest, as far as it is kept, does not collide on the two texts. -/
def Apart (sha256 : List UInt8 → List Char) (text text' : List Char) : Prop :=
  (sha256 (encodeUtf8 text)).take identityCharacters =
    (sha256 (encodeUtf8 text')).take identityCharacters → encodeUtf8 text = encodeUtf8 text'

theorem prefixed_iff {before text text' : List Char} (happart : Apart sha256 text text') :
    before ++ (sha256 (encodeUtf8 text)).take identityCharacters =
      before ++ (sha256 (encodeUtf8 text')).take identityCharacters ↔ text = text' := by
  rw [List.append_right_inj]
  constructor
  · intro h
    exact encodeUtf8_injective (happart h)
  · intro h
    rw [h]

theorem candidateId_eq_iff (hc : c.phonemes ≠ []) (hc' : c'.phonemes ≠ [])
    (happart : Apart sha256 (runtimeText «namespace» c) (runtimeText «namespace» c')) :
    candidateId sha256 «namespace» c = candidateId sha256 «namespace» c' ↔ c.pieces = c'.pieces :=
  (prefixed_iff happart).trans (runtimeText_eq_iff hc hc')

theorem datgSourceId_eq_iff (hc : c.phonemes ≠ []) (hc' : c'.phonemes ≠ [])
    (happart : Apart sha256 (datgText c) (datgText c')) :
    datgSourceId sha256 c = datgSourceId sha256 c' ↔ c.pieces = c'.pieces :=
  (prefixed_iff happart).trans (datgText_eq_iff hc hc')

/-- Names follow pieces, so they are faithful exactly when the pieces are. -/
theorem faithful_iff {named : Prop} (h : named ↔ c.pieces = c'.pieces) :
    (named ↔ c.text = c'.text ∧ c.phonemes = c'.phonemes) ↔
      (c.pieces = c'.pieces → c.text = c'.text ∧ c.phonemes = c'.phonemes) := by
  rw [h]
  refine ⟨fun hiff => hiff.mp, fun himp => ⟨himp, ?_⟩⟩
  rintro ⟨htext, hphonemes⟩
  rw [RawCandidate.pieces, htext, hphonemes, RawCandidate.pieces]

/-- Equal names mean equal candidates, in both adapters, exactly when equal pieces do;
so they do for all candidates without NUL characters. -/
theorem candidate_names_faithful (hc : c.phonemes ≠ []) (hc' : c'.phonemes ≠ [])
    (hruntime : Apart sha256 (runtimeText «namespace» c) (runtimeText «namespace» c'))
    (hdatg : Apart sha256 (datgText c) (datgText c')) :
    ((candidateId sha256 «namespace» c = candidateId sha256 «namespace» c' ↔
        c.text = c'.text ∧ c.phonemes = c'.phonemes) ↔
      (c.pieces = c'.pieces → c.text = c'.text ∧ c.phonemes = c'.phonemes)) ∧
    ((datgSourceId sha256 c = datgSourceId sha256 c' ↔
        c.text = c'.text ∧ c.phonemes = c'.phonemes) ↔
      (c.pieces = c'.pieces → c.text = c'.text ∧ c.phonemes = c'.phonemes)) ∧
    (c.NulFree → c'.NulFree →
      (c.pieces = c'.pieces → c.text = c'.text ∧ c.phonemes = c'.phonemes)) :=
  ⟨faithful_iff (candidateId_eq_iff hc hc' hruntime), faithful_iff (datgSourceId_eq_iff hc hc' hdatg),
    pieces_faithful_of_nulFree⟩

/-- A NUL in the text, or between two phonemes. -/
def smallLeft : RawCandidate := ⟨['a', nul, 'b'], [['c']]⟩
def smallRight : RawCandidate := ⟨['a'], [['b'], ['c']]⟩

theorem candidate_names_collide : isCandidate smallLeft = true ∧ isCandidate smallRight = true ∧
    isRawCandidate smallLeft = true ∧ isRawCandidate smallRight = true ∧ smallLeft ≠ smallRight ∧
    ∀ (sha256 : List UInt8 → List Char) («namespace» : List Char),
      candidateId sha256 «namespace» smallLeft = candidateId sha256 «namespace» smallRight ∧
      datgSourceId sha256 smallLeft = datgSourceId sha256 smallRight :=
  ⟨by decide, by decide, by decide, by decide, by decide, fun _ _ => ⟨rfl, rfl⟩⟩

/-! ## The loops -/

/-- What the guided generation returns: distinct candidates, each under its own name. -/
theorem distinct_names (raw seen : List RawCandidate) :
    ((distinct sha256 seen raw).map NamedCandidate.candidate).Nodup ∧
    ∀ named ∈ distinct sha256 seen raw,
      named.sourceId = datgSourceId sha256 named.candidate ∧ named.candidate ∉ seen := by
  induction raw generalizing seen with
  | nil => exact ⟨List.nodup_nil, fun named h => absurd h List.not_mem_nil⟩
  | cons item raw ih =>
    rw [distinct]
    split
    · exact ih seen
    · next hnew =>
      obtain ⟨hnodup, hnamed⟩ := ih ({ item with text := strip item.text } :: seen)
      constructor
      · rw [List.map_cons, List.nodup_cons]
        refine ⟨fun hmem => ?_, hnodup⟩
        obtain ⟨named, hmem, heq⟩ := List.mem_map.mp hmem
        exact (hnamed named hmem).2 (by rw [heq]; exact List.mem_cons_self)
      · intro named hmem
        rcases List.mem_cons.mp hmem with rfl | hmem
        · exact ⟨rfl, hnew⟩
        · exact ⟨(hnamed named hmem).1, fun h => (hnamed named hmem).2 (List.mem_cons_of_mem _ h)⟩

/-- What the model runtime returns: candidates under their own names, each name once. -/
theorem unique_names {candidates : List RawCandidate} {seen : List (List Char)}
    {named : List NamedCandidate} (h : (unique sha256 «namespace» seen candidates).1 = .ok named) :
    (named.map NamedCandidate.sourceId).Nodup ∧
    ∀ item ∈ named, item.sourceId = candidateId sha256 «namespace» item.candidate ∧
      item.sourceId ∉ seen := by
  induction candidates generalizing seen named with
  | nil =>
    cases h
    exact ⟨List.nodup_nil, fun item h => absurd h List.not_mem_nil⟩
  | cons candidate candidates ih =>
    rw [unique] at h
    split at h
    · cases h
    · dsimp only at h
      split at h
      · exact ih h
      · next hnew =>
        cases hrest : (unique sha256 «namespace»
            (candidateId sha256 «namespace» candidate :: seen) candidates).1 with
        | error e =>
          rw [hrest] at h
          cases h
        | ok rest =>
          rw [hrest] at h
          cases h
          obtain ⟨hnodup, hitems⟩ := ih hrest
          constructor
          · rw [List.map_cons, List.nodup_cons]
            refine ⟨fun hmem => ?_, hnodup⟩
            obtain ⟨item, hmem, heq⟩ := List.mem_map.mp hmem
            exact (hitems item hmem).2 (by rw [heq]; exact List.mem_cons_self)
          · intro item hmem
            rcases List.mem_cons.mp hmem with rfl | hmem
            · exact ⟨rfl, hnew⟩
            · exact ⟨(hitems item hmem).1, fun h =>
                (hitems item hmem).2 (List.mem_cons_of_mem _ h)⟩

theorem candidate_names_faithful_plain :
    (candidateId (fun bytes => bytes.map fun byte => Char.ofNat byte.toNat) ['m'] ⟨['a'], [['b']]⟩ =
        candidateId (fun bytes => bytes.map fun byte => Char.ofNat byte.toNat) ['m'] ⟨['c'], [['b']]⟩ ↔
      ['a'] = ['c'] ∧ [['b']] = [['b']]) := by
  have hc : (⟨['a'], [['b']]⟩ : RawCandidate).phonemes ≠ [] := List.cons_ne_nil _ _
  have hc' : (⟨['c'], [['b']]⟩ : RawCandidate).phonemes ≠ [] := List.cons_ne_nil _ _
  refine (candidate_names_faithful hc hc' ?_ ?_).1.mpr ?_
  · exact fun h => absurd h (by decide)
  · exact fun h => absurd h (by decide)
  · exact fun h => absurd h (by decide)

end CorpusKit.Candidates
