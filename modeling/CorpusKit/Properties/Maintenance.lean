import CorpusKit.Maintenance.Runner
import Mathlib.Data.Finset.Max

/-! # Maintenance runs and their cursors

The key builders and the accepted grammar agree on every kind but one. Where no
held key is of that kind, each page answers an accepted cursor with less ahead of
it, so that repeated runs go through both listings; where one is, a page of one
entry from the key just below it answers the cursor that is refused. -/

namespace CorpusKit.Maintenance

open Paging

/-! ## Which keys the grammar accepts -/

/-- The kind of an artifact key. -/
def kind? : StorageKey → Option ArtifactKind
  | .artifact _ _ _ kind _ => some kind
  | .staged _ => none

theorem path_eq_intercalate (segments : List (List Char)) :
    path segments = ['/'].intercalate segments := by
  induction segments with
  | nil => rfl
  | cons s segments ih =>
    cases segments with
    | nil => simp [path, List.intercalate]
    | cons t rest =>
      rw [path, ih]
      simp [List.intercalate]

theorem splitOn_render {key : StorageKey} (h : ∀ s ∈ key.segments, '/' ∉ s)
    (hne : key.segments ≠ []) : key.render.toList.splitOn '/' = key.segments := by
  rw [ObjectStore.render_toList, path_eq_intercalate]
  exact List.splitOn_intercalate '/' h hne

theorem isLowerHex_hexDigit {d : Nat} (h : d < 16) : isLowerHex (hexDigit d) = true := by
  have hall : ∀ d : Fin 16, isLowerHex (hexDigit d.val) = true := by decide
  exact hall ⟨d, h⟩

theorem isHex_hexDigits (count n : Nat) : isHex count (hexDigits count n) = true := by
  have hall : (hexDigits count n).all isLowerHex = true := by
    rw [List.all_eq_true]
    intro c hc
    obtain ⟨d, hd, rfl⟩ := hexDigits_mem hc
    exact isLowerHex_hexDigit hd
  rw [isHex, hexDigits_length, beq_self_eq_true, hall]
  rfl

theorem isHex_take {count n m : Nat} (h : m ≤ count) :
    isHex m ((hexDigits count n).take m) = true := by
  have hall : ((hexDigits count n).take m).all isLowerHex = true := by
    rw [List.all_eq_true]
    intro c hc
    obtain ⟨d, hd, rfl⟩ := hexDigits_mem (List.mem_of_mem_take hc)
    exact isLowerHex_hexDigit hd
  rw [isHex, List.length_take, hexDigits_length, Nat.min_eq_left h, beq_self_eq_true, hall]
  rfl

theorem isHex_scope (runId : Option Uuid) :
    (scopeChars runId == "project".toList || isHex 32 (scopeChars runId)) = true := by
  cases runId with
  | some run => rw [scopeChars, uuidHex, isHex_hexDigits, Bool.or_true]
  | none => rw [scopeChars, beq_self_eq_true, Bool.true_or]

/-- The pattern covers every kind but one. -/
theorem cursorKinds_contains (kind : ArtifactKind) :
    cursorKinds.contains kind.value.toList = true ↔ kind ≠ .promptSet := by
  cases kind <;> decide

theorem staged_whole (sha256 : Sha256) : ∀ s ∈ (StorageKey.staged sha256).segments,
    ObjectStore.Segment s := by
  intro s hs
  have hhex : ObjectStore.Segment (sha256Hex sha256) := ObjectStore.segment_hex (by decide)
  unfold StorageKey.segments at hs
  simp only [List.mem_cons, List.not_mem_nil, or_false] at hs
  rcases hs with h | h | h | h | h
  · exact h ▸ ⟨by simp, by simp [ObjectStore.isKeyChar, ObjectStore.isLowerAlnum], by simp⟩
  · exact h ▸ ObjectStore.segment_v1
  · exact h ▸ ⟨by simp, by simp [ObjectStore.isKeyChar, ObjectStore.isLowerAlnum], by simp⟩
  · exact h ▸ ObjectStore.segment_take hhex (by decide)
  · exact h ▸ hhex

theorem artifactCursor_render {key : StorageKey} (h : key.isArtifact = true) :
    artifactCursor key.render = true ↔ kind? key ≠ some .promptSet := by
  cases key with
  | staged sha256 => cases h
  | artifact org project runId kind sha256 =>
    have hsplit := splitOn_render (fun s hs => (ObjectStore.segment_storageKey h s hs).whole)
      (by simp [StorageKey.segments])
    unfold artifactCursor
    rw [hsplit]
    simp only [StorageKey.segments, uuidHex, sha256Hex, isHex_hexDigits, isHex_scope,
      isHex_take (show 2 ≤ 64 by decide), beq_self_eq_true, Bool.true_and, Bool.and_true]
    rw [cursorKinds_contains]
    simp [kind?]

theorem stagingCursor_render (sha256 : Sha256) :
    stagingCursor (StorageKey.staged sha256).render = true := by
  have hsplit := splitOn_render (fun s hs => (staged_whole sha256 s hs).whole)
    (by simp [StorageKey.segments])
  unfold stagingCursor
  rw [hsplit]
  simp only [StorageKey.segments, sha256Hex, isHex_hexDigits, isHex_take (show 2 ≤ 64 by decide),
    beq_self_eq_true, Bool.true_and]

theorem validKey_staged (sha256 : Sha256) :
    ObjectStore.validKey (StorageKey.staged sha256).render = true := by
  have hseg := staged_whole sha256
  have hsafe := ObjectStore.path_safe hseg
  have hkey : ObjectStore.isSafeKey (path (StorageKey.staged sha256).segments) = true := by
    obtain ⟨rest, hpath⟩ : ∃ rest, path (StorageKey.staged sha256).segments = 's' :: rest :=
      ⟨_, rfl⟩
    have hlength : (path (StorageKey.staged sha256).segments).length ≤ 512 := by
      have hdigest : (sha256Hex sha256).length = 64 := hexDigits_length 64 _
      have hhead : ((sha256Hex sha256).take 2).length ≤ 2 := by rw [List.length_take]; omega
      have hbase : "staging".toList.length = 7 := rfl
      have hversion : "v1".toList.length = 2 := rfl
      have halgorithm : "sha256".toList.length = 6 := rfl
      simp only [StorageKey.segments, path, List.length_append, List.length_cons, hdigest, hbase,
        hversion, halgorithm]
      omega
    rw [hpath] at hsafe hlength ⊢
    rw [List.length_cons] at hlength
    simp only [ObjectStore.isSafeKey, Bool.and_eq_true, decide_eq_true_eq, List.all_eq_true]
    exact ⟨⟨by decide, by omega⟩, fun d hd => hsafe d (List.mem_cons_of_mem 's' hd)⟩
  simp only [ObjectStore.validKey, ObjectStore.render_toList, Bool.and_eq_true, Bool.not_eq_true',
    decide_eq_false_iff_not]
  exact ⟨⟨hkey, ObjectStore.hasDoubleSlash_path hseg⟩, ObjectStore.no_parent hsafe⟩

/-- A stored key lies in the namespace of its builder and in no other. -/
theorem startsWith_artifactNamespace (key : StorageKey) :
    ObjectStore.startsWith key.render ObjectStore.artifactNamespace = true ↔
      key.isArtifact = true := by
  cases key with
  | artifact org project runId kind sha256 =>
    exact iff_of_true (ObjectStore.startsWith_artifact rfl) rfl
  | staged sha256 =>
    refine iff_of_false ?_ (by simp [StorageKey.isArtifact])
    rw [ObjectStore.startsWith, ObjectStore.render_toList, List.isPrefixOf_iff_prefix]
    rintro ⟨rest, h⟩
    cases h

theorem startsWith_stagingNamespace (key : StorageKey) :
    ObjectStore.startsWith key.render stagingNamespace = true ↔ ∃ sha256, key = .staged sha256 := by
  cases key with
  | artifact org project runId kind sha256 =>
    refine iff_of_false ?_ (by simp)
    rw [ObjectStore.startsWith, ObjectStore.render_toList, List.isPrefixOf_iff_prefix]
    rintro ⟨rest, h⟩
    cases h
  | staged sha256 =>
    refine iff_of_true ?_ ⟨sha256, rfl⟩
    rw [ObjectStore.startsWith, ObjectStore.render_toList, List.isPrefixOf_iff_prefix]
    refine ⟨(sha256Hex sha256).take 2 ++ '/' :: sha256Hex sha256, ?_⟩
    simp [StorageKey.segments, path, stagingNamespace]

/-! ## The keys of an inventory -/

/-- A stored object or a row that is not deleted has the key. -/
def Held (inv : Inventory) (key : StorageKey) : Prop :=
  key ∈ inv.stored ∨
    ∃ e ∈ inv.table.artifacts.rows, e.2.state ≠ .deleted ∧ e.2.storageKey = key

/-- The condition: no held key is one of a prompt set. -/
def NoPromptSet (inv : Inventory) : Prop := ∀ key, Held inv key → kind? key ≠ some .promptSet

def Within (inv' inv : Inventory) : Prop := ∀ key, Held inv' key → Held inv key

theorem Within.trans {a b c : Inventory} (h : Within a b) (h' : Within b c) : Within a c :=
  fun key hkey => h' key (h key hkey)

theorem Within.noPromptSet {inv' inv : Inventory} (h : Within inv' inv) (hinv : NoPromptSet inv) :
    NoPromptSet inv' :=
  fun key hkey => hinv key (h key hkey)

theorem within_without (inv : Inventory) (gone : String → Bool) :
    Within (inv.without gone) inv := by
  rintro key (hkey | hkey)
  · exact .inl (List.mem_of_mem_filter hkey)
  · exact .inr hkey

theorem Surroundings.within (s : Surroundings) (inv : Inventory) : Within (s.purged inv) inv := by
  rintro key (hkey | ⟨e, he, hlive, rfl⟩)
  · exact .inl ((s.shrinks inv).1 key hkey)
  · obtain ⟨e', he', hlive', hkey⟩ := (s.shrinks inv).2 e he hlive
    exact .inr ⟨e', he', hlive', hkey⟩

def heldKeys (inv : Inventory) : Finset String :=
  (inv.keys ++ ((inv.table.artifacts.rows.map (·.2)).filter fun row => row.state != .deleted).map
    ArtifactService.keyOf).toFinset

theorem mem_heldKeys {inv : Inventory} {text : String} :
    text ∈ heldKeys inv ↔ ∃ key, Held inv key ∧ key.render = text := by
  unfold heldKeys Held Inventory.keys
  simp only [List.mem_toFinset, List.mem_append, List.mem_map, List.mem_filter, bne_iff_ne]
  constructor
  · rintro (⟨key, hkey, rfl⟩ | ⟨row, ⟨⟨e, he, rfl⟩, hlive⟩, rfl⟩)
    · exact ⟨key, .inl hkey, rfl⟩
    · exact ⟨e.2.storageKey, .inr ⟨e, he, hlive, rfl⟩, rfl⟩
  · rintro ⟨key, hkey | ⟨e, he, hlive, rfl⟩, rfl⟩
    · exact .inl ⟨key, hkey, rfl⟩
    · exact .inr ⟨e.2, ⟨⟨e, he, rfl⟩, hlive⟩, rfl⟩

/-- How many held keys lie beyond a cursor. -/
def ahead (inv : Inventory) (cursor : Option String) : Nat :=
  ((heldKeys inv).filter fun key => cursor.all fun c => decide (c < key)).card

theorem heldKeys_subset {inv' inv : Inventory} (h : Within inv' inv) :
    heldKeys inv' ⊆ heldKeys inv := by
  intro text htext
  obtain ⟨key, hkey, rfl⟩ := mem_heldKeys.mp htext
  exact mem_heldKeys.mpr ⟨key, h key hkey, rfl⟩

theorem ahead_le {inv' inv : Inventory} (h : Within inv' inv) (cursor : Option String) :
    ahead inv' cursor ≤ ahead inv cursor :=
  Finset.card_le_card (Finset.filter_subset_filter _ (heldKeys_subset h))

/-- A later cursor that is a held key leaves less ahead. -/
theorem ahead_lt {inv' inv : Inventory} (h : Within inv' inv) {cursor : Option String} {b : String}
    (hb : b ∈ heldKeys inv) (hlater : ∀ c ∈ cursor, c < b) :
    ahead inv' (some b) < ahead inv cursor := by
  refine Finset.card_lt_card ((Finset.ssubset_iff_of_subset ?_).mpr ⟨b, ?_, ?_⟩)
  · intro key hkey
    rw [Finset.mem_filter, passes_iff] at hkey ⊢
    exact ⟨heldKeys_subset h hkey.1, fun c hc => lt_trans (hlater c hc) (hkey.2 b rfl)⟩
  · rw [Finset.mem_filter, passes_iff]
    exact ⟨hb, hlater⟩
  · rw [Finset.mem_filter, passes_iff]
    exact fun hmem => lt_irrefl b (hmem.2 b rfl)

theorem Inventory.nodup (inv : Inventory) : inv.keys.Nodup := inv.distinct

/-! ## One page of either listing -/

/-- A cursor of the reconciliation that a run has produced itself. -/
def OwnArtifactCursor (cursor : Option String) : Prop :=
  ∀ b ∈ cursor, ∃ key : StorageKey, key.isArtifact = true ∧ kind? key ≠ some .promptSet ∧
    key.render = b

def OwnStagingCursor (cursor : Option String) : Prop :=
  ∀ b ∈ cursor, ∃ sha256, (StorageKey.staged sha256).render = b

theorem OwnArtifactCursor.accepted {cursor : Option String} (h : OwnArtifactCursor cursor) :
    cursor.all artifactCursor = true := by
  cases cursor with
  | none => rfl
  | some b =>
    obtain ⟨key, hkey, hkind, rfl⟩ := h b rfl
    rw [Option.all_some]
    exact (artifactCursor_render hkey).mpr hkind

theorem OwnStagingCursor.accepted {cursor : Option String} (h : OwnStagingCursor cursor) :
    cursor.all stagingCursor = true := by
  cases cursor with
  | none => rfl
  | some b =>
    obtain ⟨sha256, rfl⟩ := h b rfl
    rw [Option.all_some]
    exact stagingCursor_render sha256

theorem OwnArtifactCursor.listing {cursor : Option String} (h : OwnArtifactCursor cursor)
    {limit : Nat} (hlimit : 1 ≤ limit ∧ limit ≤ 1000) :
    ObjectStore.validListing limit cursor = true := by
  unfold ObjectStore.validListing
  rw [decide_eq_true (⟨hlimit.1, by omega⟩ : 1 ≤ limit ∧ limit ≤ 10000), Bool.true_and]
  cases cursor with
  | none => rfl
  | some b =>
    obtain ⟨key, hkey, -, rfl⟩ := h b rfl
    rw [Option.all_some, ObjectStore.validKey_artifact hkey, ObjectStore.startsWith_artifact hkey]
    rfl

/-- What a page of the reconciliation answers is a held key beyond its cursor. -/
theorem reconcile_next {inv : Inventory} {limit : Nat} {cursor : Option String}
    {page : ArtifactService.Page}
    (h : ArtifactService.reconcile inv.keys inv.table.artifacts cursor limit = .ok page)
    {b : String} (hb : b ∈ page.nextCursor) :
    (∃ key, Held inv key ∧ key.isArtifact = true ∧ key.render = b) ∧ ∀ c ∈ cursor, c < b := by
  have hlisting : ObjectStore.validListing limit cursor = true := by
    unfold ArtifactService.reconcile at h
    split at h
    · next hvalid => exact hvalid
    · cases h
  obtain ⟨page', hpage, hof⟩ :=
    ArtifactService.reconcile_page inv.nodup inv.table hlisting
  obtain rfl : page = page' := Except.ok.inj (h.symm.trans hpage)
  rw [hof.next] at hb
  refine ⟨?_, lt_nextCursor hb⟩
  rcases nextCursor_mem hb with ⟨text, htext, rfl⟩ | ⟨row, hrow, rfl⟩
  · obtain ⟨hstored, hnamespace⟩ :=
      ArtifactService.mem_keyStream.mp (mem_beyond.mp (List.mem_of_mem_take htext)).1
    obtain ⟨key, hkey, rfl⟩ := List.mem_map.mp hstored
    exact ⟨key, .inl hkey, (startsWith_artifactNamespace key).mp hnamespace, rfl⟩
  · obtain ⟨⟨e, he, rfl⟩, hlive⟩ :=
      ArtifactService.mem_rowStream.mp (mem_beyond.mp (List.mem_of_mem_take hrow)).1
    exact ⟨e.2.storageKey, .inr ⟨e, he, hlive, rfl⟩, inv.table.built e he, rfl⟩

theorem listStaging_mem {stored keys : List String} {limit : Nat} {cursor : Option String}
    (h : listStaging stored limit cursor = some keys) {key : String} (hkey : key ∈ keys) :
    key ∈ stored ∧ ObjectStore.startsWith key stagingNamespace = true ∧ ∀ c ∈ cursor, c < key := by
  unfold listStaging at h
  split at h
  · cases h
    have hmem := List.mem_of_mem_take hkey
    rw [List.mem_insertionSort, List.mem_filter, Bool.and_eq_true, passes_iff] at hmem
    exact hmem
  · cases h

/-- What a page of the cleanup answers is a staged key beyond its cursor. -/
theorem staging_next {inv : Inventory} {limit : Nat} {cursor : Option String} {page : StagingPage}
    (h : stagingPage inv.keys cursor limit = .ok page) {b : String} (hb : b ∈ page.nextCursor) :
    (∃ sha256, Held inv (.staged sha256) ∧ (StorageKey.staged sha256).render = b) ∧
      ∀ c ∈ cursor, c < b := by
  unfold stagingPage at h
  split at h
  · split at h
    · cases h
    · next keys hkeys =>
      cases h
      dsimp only at hb
      split at hb
      · obtain ⟨hstored, hnamespace, hlater⟩ := listStaging_mem hkeys (List.mem_of_getLast? hb)
        obtain ⟨key, hkey, rfl⟩ := List.mem_map.mp hstored
        obtain ⟨sha256, rfl⟩ := (startsWith_stagingNamespace key).mp hnamespace
        exact ⟨⟨sha256, .inl hkey, rfl⟩, hlater⟩
      · cases hb
  · cases h

theorem stagingPage_ok (inv : Inventory) {limit : Nat} (hlimit : 1 ≤ limit ∧ limit ≤ 1000)
    {cursor : Option String} (h : OwnStagingCursor cursor) :
    ∃ page, stagingPage inv.keys cursor limit = .ok page := by
  have hlisting : (decide (1 ≤ limit ∧ limit ≤ 10000) && cursor.all fun cursor =>
      ObjectStore.validKey cursor && ObjectStore.startsWith cursor stagingNamespace) = true := by
    rw [decide_eq_true (⟨hlimit.1, by omega⟩ : 1 ≤ limit ∧ limit ≤ 10000), Bool.true_and]
    cases cursor with
    | none => rfl
    | some b =>
      obtain ⟨sha256, rfl⟩ := h b rfl
      rw [Option.all_some, validKey_staged, (startsWith_stagingNamespace _).mpr ⟨sha256, rfl⟩]
      rfl
  unfold stagingPage listStaging
  rw [if_pos hlimit, if_pos hlisting]
  exact ⟨_, rfl⟩

/-! ## One run -/

theorem validateProgress_ok {current next : Option String} {pattern : String → Bool}
    {label : String} (hnext : next.all pattern = true)
    (hlater : ∀ b ∈ next, ∀ c ∈ current, c < b) :
    validateProgress current next pattern label = .ok () := by
  unfold validateProgress validateCursor
  rw [if_pos hnext]
  cases next with
  | none => rfl
  | some b =>
    cases current with
    | none => rfl
    | some c =>
      have hlt : ¬ b ≤ c := not_le.mpr (hlater b rfl c rfl)
      show (if b ≤ c then _ else _) = _
      rw [if_neg hlt]

/-- A cursor outside the grammar ends the loop. -/
theorem validateProgress_invalid {current next : Option String} {pattern : String → Bool}
    {label : String} (h : next.all pattern = false) :
    validateProgress current next pattern label =
      .error (.invalid (label ++ " cursor is invalid")) := by
  unfold validateProgress validateCursor
  rw [if_neg (by rw [h]; decide)]
  rfl

/-- What a loop over pages leaves: its cursor is at the end or nearer to it. -/
def Advanced (inv inv' : Inventory) (cursor cursor' : Option String) : Prop :=
  cursor' = none ∨ ahead inv' cursor' < ahead inv cursor

theorem Advanced.within {inv₀ inv inv' inv'' : Inventory} {cursor cursor' : Option String}
    (h : Advanced inv inv' cursor cursor') (hbefore : Within inv inv₀)
    (hafter : Within inv'' inv') : Advanced inv₀ inv'' cursor cursor' := by
  obtain hnone | hless := h
  · exact .inl hnone
  · have hle := ahead_le hbefore cursor
    have hle' := ahead_le hafter cursor'
    exact .inr (by omega)

theorem reconcilePages_ok (s : Surroundings) {limit : Nat} (hlimit : 1 ≤ limit ∧ limit ≤ 1000)
    (pages : Nat) {st : State} (hown : OwnArtifactCursor st.reconciliation)
    (hfree : NoPromptSet st.inventory) :
    ∃ st', reconcilePages s limit pages st = .ok st' ∧ Within st'.inventory st.inventory ∧
      OwnArtifactCursor st'.reconciliation ∧ st'.staging = st.staging ∧
      (0 < pages → Advanced st.inventory st'.inventory st.reconciliation st'.reconciliation) := by
  induction pages generalizing st with
  | zero => exact ⟨st, rfl, fun _ h => h, hown, rfl, fun h => absurd h (lt_irrefl 0)⟩
  | succ pages ih =>
    obtain ⟨page, hpage, -⟩ := ArtifactService.reconcile_page st.inventory.nodup
      st.inventory.table (hown.listing hlimit)
    have hnext : OwnArtifactCursor page.nextCursor := by
      intro b hb
      obtain ⟨⟨key, hheld, hkey, rfl⟩, -⟩ := reconcile_next hpage hb
      exact ⟨key, hkey, hfree key hheld, rfl⟩
    have hprogress : validateProgress st.reconciliation page.nextCursor artifactCursor
        "reconciliation" = .ok () :=
      validateProgress_ok hnext.accepted fun b hb => (reconcile_next hpage hb).2
    let left := st.inventory.without fun key => page.orphans.contains key && s.orphanGone key
    let next : State := { st with inventory := left, reconciliation := page.nextCursor }
    have hwithin : Within left st.inventory := within_without _ _
    have hunfold : reconcilePages s limit (pages + 1) st =
        if page.nextCursor.isNone then .ok next else reconcilePages s limit pages next := by
      rw [reconcilePages, hpage]
      show (validateProgress _ _ _ _ >>= _) = _
      rw [hprogress]
      rfl
    rw [hunfold]
    cases hcursor : page.nextCursor with
    | none => exact ⟨next, rfl, hwithin, hnext, rfl, fun _ => .inl hcursor⟩
    | some b =>
      obtain ⟨⟨key, hheld, -, hkey⟩, hlater⟩ := reconcile_next hpage hcursor
      have hless : ahead left (some b) < ahead st.inventory st.reconciliation :=
        ahead_lt hwithin (mem_heldKeys.mpr ⟨key, hheld, hkey⟩) hlater
      obtain ⟨st', hrun, hwithin', hown', hstaging, hadvanced⟩ :=
        ih (show OwnArtifactCursor next.reconciliation from hnext) (hwithin.noPromptSet hfree)
      refine ⟨st', hrun, hwithin'.trans hwithin, hown', hstaging, fun _ => ?_⟩
      have hreached :
          Advanced st.inventory next.inventory st.reconciliation next.reconciliation := by
        refine .inr ?_
        show ahead left page.nextCursor < _
        rw [hcursor]
        exact hless
      obtain hzero | hpos := Nat.eq_zero_or_pos pages
      · subst hzero
        obtain rfl : next = st' := Except.ok.inj hrun
        exact hreached
      · obtain hnone | hnear := hadvanced hpos
        · exact .inl hnone
        · have hnear' : ahead st'.inventory st'.reconciliation < ahead left page.nextCursor := hnear
          rw [hcursor] at hnear'
          exact .inr (hnear'.trans hless)

theorem stagingPages_ok (s : Surroundings) {limit : Nat} (hlimit : 1 ≤ limit ∧ limit ≤ 1000)
    (pages : Nat) {st : State} (hown : OwnStagingCursor st.staging) :
    ∃ st', stagingPages s limit pages st = .ok st' ∧ Within st'.inventory st.inventory ∧
      OwnStagingCursor st'.staging ∧ st'.reconciliation = st.reconciliation ∧
      (0 < pages → Advanced st.inventory st'.inventory st.staging st'.staging) := by
  induction pages generalizing st with
  | zero => exact ⟨st, rfl, fun _ h => h, hown, rfl, fun h => absurd h (lt_irrefl 0)⟩
  | succ pages ih =>
    obtain ⟨page, hpage⟩ := stagingPage_ok st.inventory hlimit hown
    have hnext : OwnStagingCursor page.nextCursor := by
      intro b hb
      obtain ⟨⟨sha256, -, hkey⟩, -⟩ := staging_next hpage hb
      exact ⟨sha256, hkey⟩
    have hprogress : validateProgress st.staging page.nextCursor stagingCursor "staging" = .ok () :=
      validateProgress_ok hnext.accepted fun b hb => (staging_next hpage hb).2
    let left := st.inventory.without fun key => page.keys.contains key && s.stagedGone key
    let next : State := { st with inventory := left, staging := page.nextCursor }
    have hwithin : Within left st.inventory := within_without _ _
    have hunfold : stagingPages s limit (pages + 1) st =
        if page.nextCursor.isNone then .ok next else stagingPages s limit pages next := by
      rw [stagingPages, hpage]
      show (validateProgress _ _ _ _ >>= _) = _
      rw [hprogress]
      rfl
    rw [hunfold]
    cases hcursor : page.nextCursor with
    | none => exact ⟨next, rfl, hwithin, hnext, rfl, fun _ => .inl hcursor⟩
    | some b =>
      obtain ⟨⟨sha256, hheld, hkey⟩, hlater⟩ := staging_next hpage hcursor
      have hless : ahead left (some b) < ahead st.inventory st.staging :=
        ahead_lt hwithin (mem_heldKeys.mpr ⟨_, hheld, hkey⟩) hlater
      obtain ⟨st', hrun, hwithin', hown', hcursor', hadvanced⟩ :=
        ih (show OwnStagingCursor next.staging from hnext)
      refine ⟨st', hrun, hwithin'.trans hwithin, hown', hcursor', fun _ => ?_⟩
      have hreached : Advanced st.inventory next.inventory st.staging next.staging := by
        refine .inr ?_
        show ahead left page.nextCursor < _
        rw [hcursor]
        exact hless
      obtain hzero | hpos := Nat.eq_zero_or_pos pages
      · subst hzero
        obtain rfl : next = st' := Except.ok.inj hrun
        exact hreached
      · obtain hnone | hnear := hadvanced hpos
        · exact .inl hnone
        · have hnear' : ahead st'.inventory st'.staging < ahead left page.nextCursor := hnear
          rw [hcursor] at hnear'
          exact .inr (hnear'.trans hless)

/-- The limits that `run_once` accepts. -/
structure Limits.Valid (l : Limits) : Prop where
  limit : 1 ≤ l.limit ∧ l.limit ≤ 1000
  reconciliation : 1 ≤ l.reconciliationPages ∧ l.reconciliationPages ≤ 20
  staging : 1 ≤ l.stagingPages ∧ l.stagingPages ≤ 20

/-- What every run keeps. -/
structure Sound (st : State) : Prop where
  reconciliation : OwnArtifactCursor st.reconciliation
  staging : OwnStagingCursor st.staging
  free : NoPromptSet st.inventory

/-- A run from its own cursors ends and moves both of them on. -/
theorem runOnce_ok {l : Limits} (hl : l.Valid) (s : Surroundings) {st : State} (hst : Sound st) :
    ∃ st', runOnce l s st = .ok st' ∧ Sound st' ∧
      Advanced st.inventory st'.inventory st.reconciliation st'.reconciliation ∧
      Advanced st.inventory st'.inventory st.staging st'.staging := by
  have hpurged : Within (s.purged st.inventory) st.inventory := s.within _
  let purged : State := { st with inventory := s.purged st.inventory }
  obtain ⟨mid, hmid, hwithin, hown, hstaging, hadvanced⟩ :=
    reconcilePages_ok s hl.limit l.reconciliationPages
      (show OwnArtifactCursor purged.reconciliation from hst.reconciliation)
      (hpurged.noPromptSet hst.free)
  have hmidStaging : OwnStagingCursor mid.staging := hstaging ▸ hst.staging
  obtain ⟨st', hlast, hwithin', hown', hreconciliation, hadvanced'⟩ :=
    stagingPages_ok s hl.limit l.stagingPages hmidStaging
  refine ⟨st', ?_, ⟨?_, hown', ?_⟩, ?_, ?_⟩
  · unfold runOnce validateCursor
    rw [if_neg (not_not.mpr hl.limit), if_neg (not_not.mpr hl.staging),
      if_neg (not_not.mpr hl.reconciliation), if_pos hst.reconciliation.accepted,
      if_pos hst.staging.accepted]
    show (reconcilePages _ _ _ _ >>= _) = _
    rw [hmid]
    exact hlast
  · rw [hreconciliation]
    exact hown
  · exact (hwithin'.trans (hwithin.trans hpurged)).noPromptSet hst.free
  · rw [hreconciliation]
    exact (hadvanced hl.reconciliation.1).within hpurged hwithin'
  · have hmoved := hadvanced' hl.staging.1
    rw [hstaging] at hmoved
    exact hmoved.within (hwithin.trans hpurged) fun _ h => h

/-! ## Repeated runs -/

def start (inv : Inventory) : State := ⟨inv, none, none⟩

section Repeated

variable {l : Nat → Limits} {st : State}

theorem runs_ok (s : Nat → Surroundings) (hl : ∀ n, (l n).Valid) (hst : Sound st) (n : Nat) :
    ∃ st', runs l s st n = .ok st' ∧ Sound st' := by
  induction n with
  | zero => exact ⟨st, rfl, hst⟩
  | succ n ih =>
    obtain ⟨before, hbefore, hsound⟩ := ih
    obtain ⟨after, hafter, hsound', -, -⟩ := runOnce_ok (hl n) (s n) hsound
    refine ⟨after, ?_, hsound'⟩
    rw [runs, hbefore]
    exact hafter

/-- What every run moves on reaches its end after some further runs. -/
theorem runs_reach (s : Nat → Surroundings) (hl : ∀ n, (l n).Valid) (hst : Sound st)
    (cursor : State → Option String)
    (hmoves : ∀ {l s st st'}, Limits.Valid l → Sound st → runOnce l s st = .ok st' →
      Advanced st.inventory st'.inventory (cursor st) (cursor st')) (n : Nat) :
    ∃ m st', n < m ∧ runs l s st m = .ok st' ∧ cursor st' = none := by
  obtain ⟨before, hbefore, hsound⟩ := runs_ok s hl hst n
  induction hahead : ahead before.inventory (cursor before) using Nat.strong_induction_on
    generalizing n before with
  | _ a ih =>
    obtain ⟨after, hafter, hsound', -, -⟩ := runOnce_ok (hl n) (s n) hsound
    have hrun : runs l s st (n + 1) = .ok after := by
      rw [runs, hbefore]
      exact hafter
    obtain hnone | hless := hmoves (hl n) hsound hafter
    · exact ⟨n + 1, after, Nat.lt_succ_self n, hrun, hnone⟩
    · obtain ⟨m, st', hm, hst', hnone⟩ :=
        ih _ (hahead ▸ hless) (n + 1) after hrun hsound' rfl
      exact ⟨m, st', by omega, hst', hnone⟩

end Repeated

/-! ## Where a prompt set stops the runs -/

/-- Every cursor that a page answers from an accepted one is accepted. -/
structure CursorsAccepted (inv : Inventory) : Prop where
  reconciliation : ∀ limit cursor page, 1 ≤ limit ∧ limit ≤ 1000 →
    cursor.all artifactCursor = true →
    ArtifactService.reconcile inv.keys inv.table.artifacts cursor limit = .ok page →
      page.nextCursor.all artifactCursor = true
  staging : ∀ limit cursor page, 1 ≤ limit ∧ limit ≤ 1000 → cursor.all stagingCursor = true →
    stagingPage inv.keys cursor limit = .ok page → page.nextCursor.all stagingCursor = true

/-- No run from the start fails, and both listings are gone through again and again. -/
structure Proceeds (inv : Inventory) : Prop where
  ends : ∀ (l : Nat → Limits) (s : Nat → Surroundings), (∀ n, (l n).Valid) →
    ∀ n, ∃ st, runs l s (start inv) n = .ok st
  reconciliation : ∀ (l : Nat → Limits) (s : Nat → Surroundings), (∀ n, (l n).Valid) →
    ∀ n, ∃ m st, n < m ∧ runs l s (start inv) m = .ok st ∧ st.reconciliation = none
  staging : ∀ (l : Nat → Limits) (s : Nat → Surroundings), (∀ n, (l n).Valid) →
    ∀ n, ∃ m st, n < m ∧ runs l s (start inv) m = .ok st ∧ st.staging = none

theorem accepted_of_noPromptSet {inv : Inventory} (h : NoPromptSet inv) : CursorsAccepted inv where
  reconciliation limit cursor page _ _ hpage := by
    have hown : OwnArtifactCursor page.nextCursor := by
      intro b hb
      obtain ⟨⟨key, hheld, hkey, rfl⟩, -⟩ := reconcile_next hpage hb
      exact ⟨key, hkey, h key hheld, rfl⟩
    exact hown.accepted
  staging limit cursor page _ _ hpage := by
    have hown : OwnStagingCursor page.nextCursor := by
      intro b hb
      obtain ⟨⟨sha256, -, hkey⟩, -⟩ := staging_next hpage hb
      exact ⟨sha256, hkey⟩
    exact hown.accepted

theorem proceeds_of_noPromptSet {inv : Inventory} (h : NoPromptSet inv) : Proceeds inv := by
  have hstart : Sound (start inv) := ⟨fun b hb => (by cases hb), fun b hb => (by cases hb), h⟩
  have hmoves : ∀ {l s st st'}, Limits.Valid l → Sound st → runOnce l s st = .ok st' →
      Advanced st.inventory st'.inventory st.reconciliation st'.reconciliation ∧
        Advanced st.inventory st'.inventory st.staging st'.staging := by
    intro l s st st' hl hst hrun
    obtain ⟨after, hafter, -, hmoved⟩ := runOnce_ok hl s hst
    obtain rfl : st' = after := Except.ok.inj (hrun.symm.trans hafter)
    exact hmoved
  refine ⟨fun l s hl n => ?_, fun l s hl n => ?_, fun l s hl n => ?_⟩
  · obtain ⟨st, hrun, -⟩ := runs_ok s hl hstart n
    exact ⟨st, hrun⟩
  · exact runs_reach s hl hstart State.reconciliation (fun hl hst hrun => (hmoves hl hst hrun).1) n
  · exact runs_reach s hl hstart State.staging (fun hl hst hrun => (hmoves hl hst hrun).2) n

/-- The first entry of a stream beyond a cursor is at most any of its entries there. -/
theorem fullBoundary_first {α : Type} {f : α → String} {xs : List α} (h : Ordered f xs)
    {cursor : Option String} {a : α} (ha : a ∈ beyond f cursor xs) :
    ∃ y ∈ fullBoundary f 1 ((beyond f cursor xs).take 1), y ≤ f a := by
  have hord : Ordered f (beyond f cursor xs) := h.filter _
  cases hbeyond : beyond f cursor xs with
  | nil => rw [hbeyond] at ha; cases ha
  | cons x rest =>
    rw [hbeyond] at ha hord
    refine ⟨f x, by simp [fullBoundary], ?_⟩
    obtain rfl | hrest := List.mem_cons.mp ha
    · exact le_refl _
    · exact le_of_lt ((List.pairwise_cons.mp hord).1 a hrest)

/-- From the held key just below another, a page of one entry answers that key. -/
theorem reconcile_at {inv : Inventory} {key : StorageKey} (hheld : Held inv key)
    (hkey : key.isArtifact = true) {cursor : Option String}
    (hlisting : ObjectStore.validListing 1 cursor = true) (hbelow : ∀ c ∈ cursor, c < key.render)
    (hnext : ∀ other : StorageKey, Held inv other → other.isArtifact = true →
      (∀ c ∈ cursor, c < other.render) → key.render ≤ other.render) :
    ∃ page, ArtifactService.reconcile inv.keys inv.table.artifacts cursor 1 = .ok page ∧
      page.nextCursor = some key.render := by
  obtain ⟨page, hpage, hof⟩ := ArtifactService.reconcile_page inv.nodup inv.table hlisting
  refine ⟨page, hpage, ?_⟩
  -- the stream that holds the key has a full page, whose entry is not beyond the key
  obtain ⟨b, hb, hle⟩ : ∃ b ∈ page.nextCursor, b ≤ key.render := by
    rw [hof.next]
    obtain hstored | ⟨e, he, hlive, rfl⟩ := hheld
    · have hmem : key.render ∈ beyond id cursor (ArtifactService.keyStream inv.keys) :=
        mem_beyond.mpr ⟨ArtifactService.mem_keyStream.mpr
          ⟨List.mem_map.mpr ⟨key, hstored, rfl⟩, ObjectStore.startsWith_artifact hkey⟩, hbelow⟩
      obtain ⟨y, hy, hle⟩ :=
        fullBoundary_first (ArtifactService.keyStream_ordered inv.nodup) hmem
      obtain ⟨b, hb, hby⟩ := reached_lower_left _ y hy
      exact ⟨b, hb, hby.trans hle⟩
    · have hmem : e.2 ∈ beyond ArtifactService.keyOf cursor
          (ArtifactService.rowStream inv.table.artifacts) :=
        mem_beyond.mpr ⟨ArtifactService.mem_rowStream.mpr ⟨⟨e, he, rfl⟩, hlive⟩, hbelow⟩
      obtain ⟨y, hy, hle⟩ := fullBoundary_first inv.table.rowStream_ordered hmem
      obtain ⟨b, hb, hby⟩ := reached_lower_right _ y hy
      exact ⟨b, hb, hby.trans hle⟩
  obtain ⟨⟨other, hother, hartifact, rfl⟩, hlater⟩ := reconcile_next hpage hb
  rw [hb, le_antisymm hle (hnext other hother hartifact hlater)]

/-- The least held key of a prompt set is answered from an accepted cursor. -/
theorem not_accepted {inv : Inventory} {key : StorageKey} (hheld : Held inv key)
    (hkind : kind? key = some .promptSet) : ¬ CursorsAccepted inv := by
  intro haccepted
  -- the least such key
  let isPrompt (text : String) : Prop :=
    ∃ key, Held inv key ∧ kind? key = some .promptSet ∧ key.render = text
  classical
  let prompts := (heldKeys inv).filter isPrompt
  have hnonempty : prompts.Nonempty :=
    ⟨key.render, Finset.mem_filter.mpr ⟨mem_heldKeys.mpr ⟨key, hheld, rfl⟩, key, hheld, hkind, rfl⟩⟩
  obtain ⟨least, hleast, hfirst⟩ := Finset.exists_min_image prompts id hnonempty
  obtain ⟨key, hheld, hkind, rfl⟩ := (Finset.mem_filter.mp hleast).2
  have hkey : key.isArtifact = true := by
    cases key with
    | artifact org project runId kind sha256 => rfl
    | staged sha256 => cases hkind
  -- the greatest held key below it, if there is one
  let isBelow (text : String) : Prop :=
    text < key.render ∧ ∃ other, Held inv other ∧ other.isArtifact = true ∧ other.render = text
  let below := (heldKeys inv).filter isBelow
  have hmemBelow : ∀ {other : StorageKey}, Held inv other → other.isArtifact = true →
      other.render < key.render → other.render ∈ below := by
    intro other hother hartifact hlt
    exact Finset.mem_filter.mpr
      ⟨mem_heldKeys.mpr ⟨other, hother, rfl⟩, hlt, other, hother, hartifact, rfl⟩
  obtain ⟨cursor, hown, hcursor, hnext⟩ : ∃ cursor : Option String, OwnArtifactCursor cursor ∧
      (∀ c ∈ cursor, c < key.render) ∧ ∀ other : StorageKey, Held inv other →
        other.isArtifact = true → (∀ c ∈ cursor, c < other.render) → key.render ≤ other.render := by
    by_cases hempty : below.Nonempty
    · obtain ⟨greatest, hgreatest, hlast⟩ := Finset.exists_max_image below id hempty
      obtain ⟨-, hlt, other, hother, hartifact, rfl⟩ := Finset.mem_filter.mp hgreatest
      refine ⟨some other.render, ?_, ?_, ?_⟩
      · intro b hb
        cases hb
        refine ⟨other, hartifact, fun hprompt => ?_, rfl⟩
        have hin : other.render ∈ prompts :=
          Finset.mem_filter.mpr
            ⟨mem_heldKeys.mpr ⟨other, hother, rfl⟩, other, hother, hprompt, rfl⟩
        exact absurd hlt (not_lt.mpr (hfirst _ hin))
      · intro c hc
        cases hc
        exact hlt
      · intro next hnextHeld hnextArtifact hlater
        by_contra hnot
        have hin := hmemBelow hnextHeld hnextArtifact (not_le.mp hnot)
        exact absurd (hlater _ rfl) (not_lt.mpr (hlast _ hin))
    · refine ⟨none, fun b hb => (by cases hb), fun c hc => (by cases hc), ?_⟩
      intro next hnextHeld hnextArtifact _
      by_contra hnot
      exact hempty ⟨_, hmemBelow hnextHeld hnextArtifact (not_le.mp hnot)⟩
  obtain ⟨page, hpage, hanswer⟩ :=
    reconcile_at hheld hkey (hown.listing (by decide)) hcursor hnext
  have hok := haccepted.reconciliation 1 cursor page (by decide) hown.accepted hpage
  rw [hanswer, Option.all_some, artifactCursor_render hkey] at hok
  exact hok hkind

/-- **Maintenance cursors.** Every cursor that a page answers is accepted, no run fails
on one and every listing is gone through, exactly where no held key is one of a prompt
set. -/
theorem maintenance_proceeds_iff (inv : Inventory) :
    (CursorsAccepted inv ∧ Proceeds inv) ↔ NoPromptSet inv := by
  constructor
  · rintro ⟨haccepted, -⟩ key hheld hkind
    exact not_accepted hheld hkind haccepted
  · intro hfree
    exact ⟨accepted_of_noPromptSet hfree, proceeds_of_noPromptSet hfree⟩

/-! ## A stored prompt set -/

/-- A first page whose cursor is not accepted ends a run. -/
theorem runOnce_stops {l : Limits} (hl : l.Valid) {s : Surroundings} {st : State}
    (hreconciliation : st.reconciliation.all artifactCursor = true)
    (hstaging : st.staging.all stagingCursor = true) {page : ArtifactService.Page}
    (hpage : ArtifactService.reconcile (s.purged st.inventory).keys
      (s.purged st.inventory).table.artifacts st.reconciliation l.limit = .ok page)
    (hnext : page.nextCursor.all artifactCursor = false) :
    runOnce l s st = .error (.invalid "reconciliation cursor is invalid") := by
  obtain ⟨pages, hpages⟩ : ∃ pages, l.reconciliationPages = pages + 1 :=
    ⟨l.reconciliationPages - 1, by have := hl.reconciliation.1; omega⟩
  unfold runOnce validateCursor
  rw [if_neg (not_not.mpr hl.limit), if_neg (not_not.mpr hl.staging),
    if_neg (not_not.mpr hl.reconciliation), if_pos hreconciliation, if_pos hstaging, hpages]
  show (reconcilePages _ _ _ _ >>= _) = _
  rw [reconcilePages, hpage]
  show ((validateProgress _ _ _ _ >>= _) >>= _) = _
  rw [validateProgress_invalid hnext]
  rfl

/-- One stored object: the prompts of a project. -/
def promptInventory : Inventory where
  stored := [artifactStorageKey 1 2 none .promptSet 3]
  distinct := List.nodup_singleton _
  table := ⟨∅, fun _ he => (List.not_mem_nil he).elim, List.Pairwise.nil⟩

def undisturbed : Surroundings where
  purged := id
  shrinks _ := ⟨fun _ h => h, fun e he hlive => ⟨e, he, hlive, rfl⟩⟩
  orphanGone _ := false
  stagedGone _ := false

/-- A page of one entry that ends on the prompts stops the run. -/
theorem promptInventory_stops :
    ¬ (CursorsAccepted promptInventory ∧ Proceeds promptInventory) ∧
      runOnce ⟨1, 10, 10⟩ undisturbed (start promptInventory) =
        .error (.invalid "reconciliation cursor is invalid") := by
  have hheld : Held promptInventory (artifactStorageKey 1 2 none .promptSet 3) :=
    .inl List.mem_cons_self
  have hfirst : ∀ other : StorageKey, Held promptInventory other → other.isArtifact = true →
      (∀ c ∈ (none : Option String), c < other.render) →
      (artifactStorageKey 1 2 none .promptSet 3).render ≤ other.render := by
    rintro other (hother | ⟨e, he, -⟩) - -
    · rw [List.mem_singleton.mp hother]
    · exact (List.not_mem_nil he).elim
  obtain ⟨page, hpage, hnext⟩ :=
    reconcile_at hheld rfl (by decide) (fun c hc => (by cases hc)) hfirst
  refine ⟨fun h => not_accepted hheld rfl h.1, ?_⟩
  refine runOnce_stops ⟨by decide, by decide, by decide⟩ rfl rfl hpage ?_
  rw [hnext, Option.all_some, ← Bool.not_eq_true, artifactCursor_render rfl]
  exact fun hne => hne rfl

end CorpusKit.Maintenance
