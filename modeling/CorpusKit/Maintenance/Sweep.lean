import CorpusKit.Services.Artifacts

/-! # Reconciliation sweeps

A sweep calls `reconcile_orphans` from the start and feeds back the cursor each
page answers. Nobody else touches the store or the table meanwhile, but the
sweep itself deletes orphans of the pages it has seen. -/

namespace CorpusKit

open Paging

namespace ArtifactService

/-- The artifact table, with what its schema and its writers guarantee. -/
structure ArtifactTable where
  artifacts : Table Uuid Artifact
  /-- `artifact_storage_key` builds every key. -/
  built : ∀ e ∈ artifacts.rows, e.2.storageKey.isArtifact = true
  /-- `uq_artifacts_storage_key`. -/
  unique : artifacts.rows.Pairwise fun a b => a.2.storageKey.render ≠ b.2.storageKey.render

/-- The stored objects, by keys their adapter accepted. -/
structure StoredKeys where
  keys : List String
  nodup : keys.Nodup
  valid : ∀ key ∈ keys, ObjectStore.validKey key = true

/-- The pages of a sweep, as far as `fuel` calls go. `collects` says which of the
orphans a page finds it deletes: the old ones whose deletion succeeds. -/
def sweep (artifacts : Table Uuid Artifact) (limit : Nat) (collects : String → Bool) :
    Nat → List String → Option String → Except Error (Option (List Page))
  | 0, _, _ => .ok none
  | fuel + 1, stored, cursor => do
    let page ← reconcile stored artifacts cursor limit
    match page.nextCursor with
    | none => pure (some [page])
    | some next =>
      let left := stored.filter fun key => !(page.orphans.contains key && collects key)
      let later ← sweep artifacts limit collects fuel left (some next)
      pure (later.map fun pages => page :: pages)

/-! ## The two streams -/

def keyOf (row : Artifact) : String := row.storageKey.render

/-- The stored keys of the namespace, in order. -/
def keyStream (stored : List String) : List String :=
  (stored.filter fun key => ObjectStore.startsWith key ObjectStore.artifactNamespace).insertionSort
    (· ≤ ·)

/-- The rows that are not deleted, in the order of their keys. -/
def rowStream (artifacts : Table Uuid Artifact) : List Artifact :=
  ((artifacts.rows.map (·.2)).filter fun row => row.state != .deleted).insertionSort
    fun a b => keyOf a ≤ keyOf b

theorem keyStream_ordered {stored : List String} (h : stored.Nodup) :
    Ordered id (keyStream stored) :=
  sort_ordered (List.Pairwise.filter _ h)

theorem ArtifactTable.rows_unique (table : ArtifactTable) :
    (table.artifacts.rows.map (·.2)).Pairwise fun a b => keyOf a ≠ keyOf b :=
  List.pairwise_map.mpr table.unique

theorem ArtifactTable.rowStream_ordered (table : ArtifactTable) :
    Ordered keyOf (rowStream table.artifacts) :=
  sort_ordered (List.Pairwise.filter _ table.rows_unique)

/-- A listing is the first page of the key stream beyond the cursor. -/
theorem listKeys_eq {stored : List String} (h : stored.Nodup) (limit : Nat) (cursor : Option String) :
    ObjectStore.listKeys stored limit cursor =
      (beyond id cursor (keyStream stored)).take limit := by
  have hne : (stored.filter fun key =>
      ObjectStore.startsWith key ObjectStore.artifactNamespace).Pairwise
        fun a b => id a ≠ id b := List.Pairwise.filter _ h
  have hsort := sort_filter (f := (id : String → String)) hne
    fun key => cursor.all fun c => decide (c < key)
  rw [List.filter_filter] at hsort
  unfold ObjectStore.listKeys beyond keyStream
  have hcomm : ∀ key : String, (ObjectStore.startsWith key ObjectStore.artifactNamespace &&
      cursor.all fun c => decide (c < key)) = ((cursor.all fun c => decide (c < key)) &&
        ObjectStore.startsWith key ObjectStore.artifactNamespace) := fun key => Bool.and_comm _ _
  simp only [hcomm]
  exact congrArg (List.take limit) hsort

theorem render_pos {key : StorageKey} (h : key.isArtifact = true) : "" < key.render := by
  rw [String.lt_iff_toList_lt, ObjectStore.render_toList]
  obtain ⟨rest, hpath⟩ := ObjectStore.artifact_head h
  rw [hpath]
  exact List.nil_lt_cons _ _

/-- A metadata page is the first page of the row stream beyond the cursor. -/
theorem ArtifactTable.auditArtifacts_eq (table : ArtifactTable) (limit : Nat)
    (cursor : Option String) :
    auditArtifacts table.artifacts cursor limit =
      (beyond keyOf cursor (rowStream table.artifacts)).take limit := by
  have hsort := sort_filter (f := keyOf) (List.Pairwise.filter (fun row => row.state != .deleted)
    table.rows_unique) fun row => cursor.all fun c => decide (c < keyOf row)
  rw [List.filter_filter] at hsort
  have hpass : ((table.artifacts.rows.map (·.2)).filter fun row =>
      row.state != .deleted && decide (cursor.getD "" < row.storageKey.render)) =
      (table.artifacts.rows.map (·.2)).filter fun row =>
        (cursor.all fun c => decide (c < keyOf row)) && row.state != .deleted := by
    refine List.filter_congr fun row hrow => ?_
    obtain ⟨e, he, rfl⟩ := List.mem_map.mp hrow
    rw [Bool.and_comm]
    cases cursor with
    | some c => rfl
    | none =>
      have hpos := render_pos (table.built e he)
      rw [Option.getD_none, decide_eq_true hpos]
      rfl
  unfold auditArtifacts
  simp only [hpass]
  exact congrArg (List.take limit) hsort

theorem mem_keyStream {stored : List String} {key : String} :
    key ∈ keyStream stored ↔
      key ∈ stored ∧ ObjectStore.startsWith key ObjectStore.artifactNamespace = true := by
  rw [keyStream, List.mem_insertionSort, List.mem_filter]

theorem mem_rowStream {artifacts : Table Uuid Artifact} {row : Artifact} :
    row ∈ rowStream artifacts ↔ (∃ e ∈ artifacts.rows, e.2 = row) ∧ row.state ≠ .deleted := by
  rw [rowStream, List.mem_insertionSort, List.mem_filter, List.mem_map, bne_iff_ne]

/-! ## One page -/

theorem reconciliationCursor_eq (keys : List String) (rows : List Artifact) (limit : Nat) :
    reconciliationCursor keys rows limit = nextCursor id keyOf limit keys rows := by
  unfold reconciliationCursor nextCursor fullBoundary
  simp only [Option.map_id, id_eq]
  have hrows : (fun row : Artifact => row.storageKey.render) = keyOf := rfl
  rw [hrows]
  generalize (if keys.length = limit then keys.getLast? else none) = ofKeys
  generalize (if rows.length = limit then rows.getLast?.map keyOf else none) = ofRows
  cases ofKeys <;> cases ofRows <;> rfl

theorem page_keys (artifacts : Table Uuid Artifact) (keys : List String) (cursor : Option String)
    (limit : Nat) : (reconciliationPage artifacts keys cursor limit).keys =
      upTo id (reconciliationPage artifacts keys cursor limit).nextCursor keys := rfl

theorem page_artifacts (artifacts : Table Uuid Artifact) (keys : List String)
    (cursor : Option String) (limit : Nat) :
    (reconciliationPage artifacts keys cursor limit).artifacts =
      upTo keyOf (reconciliationPage artifacts keys cursor limit).nextCursor
        (auditArtifacts artifacts cursor limit) := rfl

/-- What a page from `cursor` is: the two streams beyond the cursor, cut at the
next one. -/
structure PageOf (stored : List String) (table : ArtifactTable) (limit : Nat)
    (cursor : Option String) (page : Page) : Prop where
  next : page.nextCursor = nextCursor id keyOf limit
    ((beyond id cursor (keyStream stored)).take limit)
    ((beyond keyOf cursor (rowStream table.artifacts)).take limit)
  keys : page.keys ++ rest id page.nextCursor (keyStream stored) =
    beyond id cursor (keyStream stored)
  artifacts : page.artifacts ++ rest keyOf page.nextCursor (rowStream table.artifacts) =
    beyond keyOf cursor (rowStream table.artifacts)
  below : ∀ key ∈ page.keys, ∀ b ∈ page.nextCursor, key ≤ b

theorem reconcile_page {stored : List String} (hstored : stored.Nodup) (table : ArtifactTable)
    {limit : Nat} {cursor : Option String}
    (hlisting : ObjectStore.validListing limit cursor = true) :
    ∃ page, reconcile stored table.artifacts cursor limit = .ok page ∧
      PageOf stored table limit cursor page := by
  have hlimit : 0 < limit := by
    have := (Bool.and_eq_true_iff.mp hlisting).1
    have := of_decide_eq_true this
    omega
  let xs := (beyond id cursor (keyStream stored)).take limit
  let ys := (beyond keyOf cursor (rowStream table.artifacts)).take limit
  let page := reconciliationPage table.artifacts (ObjectStore.listKeys stored limit cursor) cursor
    limit
  have hnext : page.nextCursor = nextCursor id keyOf limit xs ys := by
    show reconciliationCursor _ _ limit = _
    rw [listKeys_eq hstored, table.auditArtifacts_eq, reconciliationCursor_eq]
  have hkeys : page.keys = upTo id page.nextCursor xs :=
    (page_keys _ _ _ _).trans (congrArg _ (listKeys_eq hstored limit cursor))
  have hrows : page.artifacts = upTo keyOf page.nextCursor ys :=
    (page_artifacts _ _ _ _).trans (congrArg _ (table.auditArtifacts_eq limit cursor))
  have hlater : ∀ c ∈ cursor, ∀ b ∈ page.nextCursor, c < b := by
    intro c hc b hb
    rw [hnext] at hb
    exact lt_nextCursor hb c hc
  refine ⟨page, by unfold reconcile; rw [if_pos hlisting], hnext, ?_, ?_, ?_⟩
  · rw [hkeys]
    refine page_append_rest hlimit (keyStream_ordered hstored) hlater ?_
    rw [hnext]
    exact reached_lower_left _
  · rw [hrows]
    refine page_append_rest hlimit table.rowStream_ordered hlater ?_
    rw [hnext]
    exact reached_lower_right _
  · intro key hkey b hb
    rw [hkeys] at hkey
    exact (mem_upTo.mp hkey).2 b hb

/-- A cursor a page answers is one the next listing accepts. -/
theorem PageOf.validListing {stored : List String} {table : ArtifactTable} {limit : Nat}
    {cursor : Option String} {page : Page} (h : PageOf stored table limit cursor page)
    (hvalid : ∀ key ∈ stored, ObjectStore.startsWith key ObjectStore.artifactNamespace = true →
      ObjectStore.validKey key = true) {b : String}
    (hlimit : 1 ≤ limit ∧ limit ≤ 10000) (hb : page.nextCursor = some b) :
    ObjectStore.validListing limit (some b) = true := by
  have hcursor : ObjectStore.validKey b = true ∧
      ObjectStore.startsWith b ObjectStore.artifactNamespace = true := by
    have hmem : b ∈ page.nextCursor := hb
    rw [h.next] at hmem
    rcases nextCursor_mem hmem with ⟨key, hkey, rfl⟩ | ⟨row, hrow, rfl⟩
    · have hin := mem_keyStream.mp (mem_beyond.mp (List.mem_of_mem_take hkey)).1
      exact ⟨hvalid key hin.1 hin.2, hin.2⟩
    · obtain ⟨⟨e, he, rfl⟩, -⟩ := mem_rowStream.mp (mem_beyond.mp (List.mem_of_mem_take hrow)).1
      have hbuilt := table.built e he
      exact ⟨ObjectStore.validKey_artifact hbuilt, ObjectStore.startsWith_artifact hbuilt⟩
  unfold ObjectStore.validListing
  rw [decide_eq_true hlimit, Bool.true_and, Option.all_some, hcursor.1, hcursor.2]
  rfl

/-- What the sweep deletes of a page is behind it: the later pages see the same keys. -/
theorem beyond_collected {stored : List String} (hstored : stored.Nodup) {page : Page} {b : String}
    (hbelow : ∀ key ∈ page.keys, key ≤ b) (collects : String → Bool) :
    beyond id (some b) (keyStream (stored.filter fun key =>
      !(page.orphans.contains key && collects key))) = beyond id (some b) (keyStream stored) := by
  have hne : (stored.filter fun key =>
      ObjectStore.startsWith key ObjectStore.artifactNamespace).Pairwise
        fun a b => id a ≠ id b := List.Pairwise.filter _ hstored
  have hstream : keyStream (stored.filter fun key =>
      !(page.orphans.contains key && collects key)) =
      (keyStream stored).filter fun key => !(page.orphans.contains key && collects key) := by
    have hsort := sort_filter (f := (id : String → String)) hne
      fun key => !(page.orphans.contains key && collects key)
    rw [List.filter_filter] at hsort
    unfold keyStream
    rw [List.filter_filter]
    simp only [Bool.and_comm (ObjectStore.startsWith _ _)]
    exact hsort
  rw [hstream]
  unfold beyond
  rw [List.filter_filter]
  refine List.filter_congr fun key _ => ?_
  by_cases hlt : b < key
  · have hout : page.orphans.contains key = false := by
      rw [Bool.eq_false_iff]
      intro hin
      have hmem : key ∈ page.keys := List.mem_of_mem_filter (List.contains_iff_mem.mp hin)
      exact absurd (hbelow key hmem) (not_le.mpr hlt)
    rw [hout, Bool.false_and, Bool.not_false, Bool.and_true]
  · have hfalse : ((some b).all fun c => decide (c < id key)) = false := by
      rw [Option.all_some]
      exact decide_eq_false hlt
    rw [hfalse, Bool.false_and]

/-! ## The whole sweep -/

/-- What a sweep from `cursor` answered: it went through both streams, and its
cursors rise until there is none. -/
structure SweepOf (stored : List String) (table : ArtifactTable) (cursor : Option String)
    (pages : List Page) : Prop where
  cursors : ∃ cursors : List String, pages.map Page.nextCursor = cursors.map some ++ [none] ∧
    cursors.Pairwise (· < ·) ∧ ∀ c ∈ cursor, ∀ b ∈ cursors, c < b
  keys : pages.flatMap Page.keys = beyond id cursor (keyStream stored)
  artifacts : pages.flatMap Page.artifacts = beyond keyOf cursor (rowStream table.artifacts)

theorem sweep_of (table : ArtifactTable) {limit : Nat} (hlimit : 1 ≤ limit ∧ limit ≤ 10000)
    (collects : String → Bool) {fuel : Nat} {stored : List String} {cursor : Option String}
    (hstored : stored.Nodup)
    (hvalid : ∀ key ∈ stored, ObjectStore.startsWith key ObjectStore.artifactNamespace = true →
      ObjectStore.validKey key = true)
    (hlisting : ObjectStore.validListing limit cursor = true)
    (hfuel : remaining id keyOf cursor (keyStream stored) (rowStream table.artifacts) < fuel) :
    ∃ pages, sweep table.artifacts limit collects fuel stored cursor = .ok (some pages) ∧
      SweepOf stored table cursor pages := by
  induction fuel generalizing stored cursor with
  | zero => omega
  | succ fuel ih =>
    obtain ⟨page, hpage, hof⟩ := reconcile_page hstored table hlisting
    have hkeys := hof.keys
    have hrows := hof.artifacts
    unfold sweep
    rw [hpage]
    cases hnext : page.nextCursor with
    | none =>
      rw [hnext, rest, List.append_nil] at hkeys hrows
      refine ⟨[page], by simp only [hnext, bind, Except.bind, pure, Except.pure], ?_, ?_, ?_⟩
      · exact ⟨[], by simp [hnext], List.Pairwise.nil, fun _ _ _ hb => (List.not_mem_nil hb).elim⟩
      · simpa using hkeys
      · simpa using hrows
    | some b =>
      let left := stored.filter fun key => !(page.orphans.contains key && collects key)
      have hbeyond := beyond_collected hstored (fun key hkey => hof.below key hkey b hnext) collects
      have hless : remaining id keyOf (some b) (keyStream left) (rowStream table.artifacts) < fuel := by
        have hmem : b ∈ page.nextCursor := hnext
        rw [hof.next] at hmem
        have := remaining_lt hmem
        have heq : remaining id keyOf (some b) (keyStream left) (rowStream table.artifacts) =
            remaining id keyOf (some b) (keyStream stored) (rowStream table.artifacts) := by
          unfold remaining
          rw [hbeyond]
        omega
      obtain ⟨pages, hsweep, hpages⟩ := ih (hstored.sublist List.filter_sublist)
        (fun key hkey => hvalid key (List.mem_of_mem_filter hkey))
        (hof.validListing hvalid hlimit hnext) hless
      have hlater : ∀ c ∈ cursor, c < b := by
        have hmem : b ∈ page.nextCursor := hnext
        rw [hof.next] at hmem
        exact lt_nextCursor hmem
      obtain ⟨cursors, hcursors, hrise, habove⟩ := hpages.cursors
      rw [hnext, rest] at hkeys hrows
      refine ⟨page :: pages, ?_, ⟨b :: cursors, ?_, ?_, ?_⟩, ?_, ?_⟩
      · simp only [hnext, bind, Except.bind, pure, Except.pure]
        rw [hsweep]
        rfl
      · simp [hnext, hcursors]
      · exact List.pairwise_cons.mpr ⟨habove b rfl, hrise⟩
      · intro c hc x hx
        rcases List.mem_cons.mp hx with rfl | hx
        · exact hlater c hc
        · exact lt_trans (hlater c hc) (habove b rfl x hx)
      · rw [List.flatMap_cons, hpages.keys, hbeyond, hkeys]
      · rw [List.flatMap_cons, hpages.artifacts, hrows]

/-- What a page of a sweep calls referenced is the key of a row. -/
theorem sweep_referenced {artifacts : Table Uuid Artifact} {limit : Nat} {collects : String → Bool}
    {fuel : Nat} {stored : List String} {cursor : Option String} {pages : List Page}
    (h : sweep artifacts limit collects fuel stored cursor = .ok (some pages)) :
    ∀ page ∈ pages, ∀ key ∈ page.referenced, ∃ e ∈ artifacts.rows, e.2.storageKey.render = key := by
  induction fuel generalizing stored cursor pages with
  | zero => cases h
  | succ fuel ih =>
    unfold sweep at h
    cases hpage : reconcile stored artifacts cursor limit with
    | error e =>
      rw [hpage] at h
      cases h
    | ok page =>
      have hreferenced : ∀ key ∈ page.referenced,
          ∃ e ∈ artifacts.rows, e.2.storageKey.render = key := by
        intro key hkey
        unfold reconcile at hpage
        split at hpage
        · cases hpage
          obtain ⟨e, he, hname⟩ := List.any_eq_true.mp (List.mem_filter.mp hkey).2
          exact ⟨e, he, beq_iff_eq.mp hname⟩
        · cases hpage
      rw [hpage] at h
      simp only [bind, Except.bind, pure, Except.pure] at h
      cases hnext : page.nextCursor with
      | none =>
        simp only [hnext] at h
        cases h
        intro page' hmem
        rw [List.mem_singleton.mp hmem]
        exact hreferenced
      | some next =>
        simp only [hnext] at h
        split at h
        · cases h
        · next later hlater =>
          cases later with
          | none => cases h
          | some rest =>
            cases h
            intro page' hmem
            rcases List.mem_cons.mp hmem with rfl | hmem
            · exact hreferenced
            · exact ih hlater page' hmem

theorem beyond_start {α : Type} {f : α → String} (l : List α) : beyond f none l = l :=
  List.filter_eq_self.mpr fun _ _ => rfl

/-- **The reconciliation sweep is exact.** From the start, with a page limit the
listing accepts, it ends after finitely many pages; its cursors rise strictly;
every stored key of the namespace is a page key exactly once, and every row
that is not deleted is audited exactly once. -/
theorem reconciliation_sweep (table : ArtifactTable) (stored : StoredKeys) (limit : Nat)
    (hlimit : 1 ≤ limit ∧ limit ≤ 10000) (collects : String → Bool) :
    ∃ fuel pages, sweep table.artifacts limit collects fuel stored.keys none = .ok (some pages) ∧
      (∃ cursors : List String, pages.map Page.nextCursor = cursors.map some ++ [none] ∧
        cursors.Pairwise (· < ·)) ∧
      (∀ key ∈ stored.keys, ObjectStore.startsWith key ObjectStore.artifactNamespace = true →
        (pages.flatMap Page.keys).count key = 1) ∧
      ∀ e ∈ table.artifacts.rows, e.2.state ≠ .deleted →
        (pages.flatMap Page.artifacts).count e.2 = 1 := by
  have hlisting : ObjectStore.validListing limit none = true := by
    unfold ObjectStore.validListing
    rw [decide_eq_true hlimit]
    rfl
  obtain ⟨pages, hsweep, hpages⟩ := sweep_of table hlimit collects stored.nodup
    (fun key hkey _ => stored.valid key hkey) hlisting (Nat.lt_succ_self _)
  obtain ⟨cursors, hcursors, hrise, -⟩ := hpages.cursors
  have hkeys := hpages.keys
  have hrows := hpages.artifacts
  rw [beyond_start] at hkeys hrows
  refine ⟨_, pages, hsweep, ⟨cursors, hcursors, hrise⟩, fun key hkey hbase => ?_,
    fun e he hlive => ?_⟩
  · rw [hkeys]
    have hmem : key ∈ keyStream stored.keys := mem_keyStream.mpr ⟨hkey, hbase⟩
    have hnodup : (keyStream stored.keys).Nodup :=
      (keyStream_ordered stored.nodup).imp fun hlt => ne_of_lt hlt
    exact List.count_eq_one_of_mem hnodup hmem
  · rw [hrows]
    have hmem : e.2 ∈ rowStream table.artifacts := mem_rowStream.mpr ⟨⟨e, he, rfl⟩, hlive⟩
    have hnodup : (rowStream table.artifacts).Nodup :=
      table.rowStream_ordered.imp fun hlt heq => ne_of_lt hlt (congrArg keyOf heq)
    exact List.count_eq_one_of_mem hnodup hmem

/-- The key of an export with this digest. -/
def sampleKey (digest : Sha256) : StorageKey := artifactStorageKey 1 2 none .export digest

def sampleRow (digest : Sha256) (state : ArtifactState) : Artifact where
  organizationId := 1
  projectId := 2
  runId := none
  createdBy := 3
  scopeKey := none
  kind := .export
  sha256 := digest
  sizeBytes := 10
  storageKey := sampleKey digest
  mediaType := "text/csv"
  filename := "corpus.csv"
  state
  retentionUntil := 1000
  tombstonedAt := if state = .active then none else some 1500
  deletedAt := if state = .deleted then some 2000 else none

/-- Rows of the digests 1, 3 and 4, and of 7, which is tombstoned; the row of 5 is
deleted. -/
def sampleTable : ArtifactTable where
  artifacts := AList.insert 13 (sampleRow 3 .active) <| AList.insert 17 (sampleRow 7 .tombstoned) <|
    AList.insert 11 (sampleRow 1 .active) <| AList.insert 15 (sampleRow 5 .deleted) <|
    AList.insert 14 (sampleRow 4 .active) ∅
  built := by decide
  unique := by
    refine List.Pairwise.imp (fun h heq => h (String.ofList_injective heq))
      (?_ : List.Pairwise (fun a b => a.2.storageKey.chars ≠ b.2.storageKey.chars) _)
    decide +kernel

/-- Objects of the digests 1, 3 and 5, and the orphans 2 and 6. -/
def sampleStored : StoredKeys where
  keys := ([6, 1, 5, 3, 2].map sampleKey).map StorageKey.render
  nodup := by
    refine List.pairwise_map.mpr (List.Pairwise.imp (fun h heq => h (String.ofList_injective heq))
      (?_ : List.Pairwise (fun a b => a.chars ≠ b.chars) _))
    decide +kernel
  valid := by
    intro key hkey
    obtain ⟨built, hbuilt, rfl⟩ := List.mem_map.mp hkey
    obtain ⟨digest, -, rfl⟩ := List.mem_map.mp hbuilt
    exact ObjectStore.validKey_artifact rfl

/-- Two keys a page, and every orphan is collected: the pages end at the objects 2, 4 and
6, where now the one stream and now the other is cut, and at the end of both. -/
theorem reconciliation_sweep_merged :
    ∃ fuel pages, sweep sampleTable.artifacts 2 (fun _ => true) fuel sampleStored.keys none =
        .ok (some pages) ∧
      (∃ cursors : List String, pages.map Page.nextCursor = cursors.map some ++ [none] ∧
        cursors.Pairwise (· < ·)) ∧
      (∀ digest ∈ ([1, 2, 3, 5, 6] : List Sha256),
        (pages.flatMap Page.keys).count (sampleKey digest).render = 1) ∧
      ∀ row ∈ [sampleRow 1 .active, sampleRow 3 .active, sampleRow 4 .active,
        sampleRow 7 .tombstoned], (pages.flatMap Page.artifacts).count row = 1 := by
  obtain ⟨fuel, pages, hsweep, hcursors, hkeys, hrows⟩ :=
    reconciliation_sweep sampleTable sampleStored 2 (by decide) fun _ => true
  have hkey : ∀ digest ∈ ([6, 1, 5, 3, 2] : List Sha256),
      (pages.flatMap Page.keys).count (sampleKey digest).render = 1 := fun digest hdigest =>
    hkeys _ (List.mem_map_of_mem (List.mem_map_of_mem hdigest)) (ObjectStore.startsWith_artifact rfl)
  have hrow : ∀ id digest state, sampleTable.artifacts.lookup id = some (sampleRow digest state) →
      state ≠ .deleted → (pages.flatMap Page.artifacts).count (sampleRow digest state) = 1 :=
    fun id digest state hlookup hlive => hrows (id, _) (Table.mem_rows.mpr hlookup) hlive
  refine ⟨fuel, pages, hsweep, hcursors, ?_, ?_⟩
  · simpa using ⟨hkey 1 (by simp), hkey 2 (by simp), hkey 3 (by simp), hkey 5 (by simp),
      hkey 6 (by simp)⟩
  · simpa using ⟨hrow 11 1 .active rfl nofun, hrow 13 3 .active rfl nofun,
      hrow 14 4 .active rfl nofun, hrow 17 7 .tombstoned rfl nofun⟩

/-- A page limit above the listing's own ends the sweep at its first call. -/
theorem reconciliation_sweep_limit :
    ¬ ∀ (table : ArtifactTable) (stored : StoredKeys) (limit : Nat), 1 ≤ limit →
      ∃ fuel pages, sweep table.artifacts limit (fun _ => false) fuel stored.keys none =
        .ok (some pages) := by
  intro hclaim
  obtain ⟨fuel, pages, hsweep⟩ := hclaim
    ⟨∅, fun _ he => (List.not_mem_nil he).elim, List.Pairwise.nil⟩
    ⟨[], List.nodup_nil, fun _ hkey => (List.not_mem_nil hkey).elim⟩ 10001 (by omega)
  cases fuel with
  | zero => cases hsweep
  | succ fuel =>
    have hraise : reconcile [] ∅ none 10001 = .error (.invalidRequest "artifact.reconcile") := by
      simp [reconcile, ObjectStore.validListing]
    unfold sweep at hsweep
    rw [hraise] at hsweep
    cases hsweep

end ArtifactService

end CorpusKit
