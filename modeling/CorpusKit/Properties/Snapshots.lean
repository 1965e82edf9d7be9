import CorpusKit.Adapters.Snapshots
import CorpusKit.Domain.ManifestJson
import CorpusKit.Properties.CorpusFiles

/-! # The digest identifies the snapshot

The manifest is a stream of framed records in the order of their paths, so it
determines the paths and, as the hash does not collide, the files the walk has come
past. What is below a directory that cannot be listed is neither hashed nor checked,
so the digest identifies and vouches for those snapshots that have no more below such
directories than directories. -/

namespace CorpusKit.Snapshots

/-! ## Records -/

theorem encode_selfDelimiting : Framing.SelfDelimiting Record.encode Record.fits := by
  intro a b ha hb s t h
  simp only [Record.encode, List.append_assoc] at h
  obtain ⟨hcount, h⟩ := List.append_inj h (by rw [Framing.length_bigEndian, Framing.length_bigEndian])
  have hlength := Framing.bigEndian_injective ha.1 hb.1 hcount
  obtain ⟨hpath, h⟩ := List.append_inj h hlength
  obtain ⟨hsize, h⟩ := List.append_inj h (by rw [Framing.length_bigEndian, Framing.length_bigEndian])
  obtain ⟨hdigest, h⟩ :=
    List.append_inj h (by rw [Framing.length_bigEndian, Framing.length_bigEndian])
  have hsizes := Framing.bigEndian_injective ha.2 hb.2 hsize
  have hdigests := Framing.bigEndian_injective (Nat.lt_of_lt_of_le a.digest.isLt (by decide))
    (Nat.lt_of_lt_of_le b.digest.isLt (by decide)) hdigest
  refine ⟨?_, h⟩
  rw [Record.mk.injEq]
  exact ⟨hpath, hsizes, BitVec.eq_of_toNat_eq hdigests⟩

theorem encode_ne_nil (record : Record) : record.encode ≠ [] := by
  intro h
  have hlength := congrArg List.length h
  simp only [Record.encode, List.length_append, Framing.length_bigEndian, List.length_nil] at hlength
  omega

theorem manifest_injective {left right : List Record} (hleft : ∀ record ∈ left, record.fits)
    (hright : ∀ record ∈ right, record.fits) (h : manifest left = manifest right) :
    left = right :=
  Framing.flatMap_injective encode_selfDelimiting encode_ne_nil hleft hright
    (List.append_cancel_left h)

/-! ## Paths -/

theorem isWord_name {name : Name} (h : isName name = true) :
    Words.IsWord (fun c => c == '/') name.toList := by
  simp only [isName, Bool.and_eq_true, decide_eq_true_eq, Bool.not_eq_true'] at h
  refine ⟨fun hnil => h.1.1.1 (String.toList_eq_nil_iff.mp hnil), fun c hc => ?_⟩
  rw [beq_eq_false_iff_ne]
  rintro rfl
  rw [List.contains_iff_mem.mpr hc] at h
  exact absurd h.2 (by decide)

/-- The bytes of a path of names tell the path. -/
theorem encodePath_injective {left right : Path} (hleft : ∀ name ∈ left, isName name = true)
    (hright : ∀ name ∈ right, isName name = true) (h : encodePath left = encodePath right) :
    left = right := by
  have hdecoded := congrArg decodeUtf8 h
  rw [encodePath, encodePath, decodeUtf8_encodeUtf8, decodeUtf8_encodeUtf8, Option.some.injEq]
    at hdecoded
  have hwords : ∀ path : Path, (∀ name ∈ path, isName name = true) →
      ∀ word ∈ path.map String.toList, Words.IsWord (fun c => c == '/') word := by
    intro path hpath word hword
    obtain ⟨name, hname, rfl⟩ := List.mem_map.mp hword
    exact isWord_name (hpath name hname)
  have hsplit := congrArg (Words.words fun c => c == '/') hdecoded
  rw [Words.words_join (by decide) (hwords left hleft),
    Words.words_join (by decide) (hwords right hright)] at hsplit
  exact List.map_injective_iff.mpr (fun _ _ => String.toList_inj.mp) hsplit

theorem append_le_append {root a b : Path} (h : a ≤ b) : root ++ a ≤ root ++ b := by
  induction root with
  | nil => exact h
  | cons name root ih => exact List.cons_le_cons name ih

/-- The order of paths does not depend on where the snapshot is. -/
theorem append_le_append_iff {root a b : Path} : root ++ a ≤ root ++ b ↔ a ≤ b := by
  constructor
  · intro h
    rcases le_total a b with hab | hba
    · exact hab
    · rw [List.append_cancel_left (le_antisymm h (append_le_append hba))]
  · exact append_le_append

/-! ## What the walk comes past -/

variable {platform : Platform} {approvedRoot : Path} {snapshot left right : Snapshot}

theorem mem_entries {item : Item} :
    item ∈ snapshot.entries ↔ item ∈ snapshot.items ∧ snapshot.reaches item.path = true :=
  List.mem_filter

theorem eq_of_path {a b : Item} (ha : a ∈ snapshot.items) (hb : b ∈ snapshot.items)
    (h : a.path = b.path) : a = b :=
  List.inj_on_of_nodup_map snapshot.distinct ha hb h

theorem reaches_iff {path : Path} : snapshot.reaches path = true ↔
    snapshot.listable = true ∧ ∀ item ∈ snapshot.items, item.path <+: path → item.path ≠ path →
      item.target = .directory true := by
  simp only [Snapshot.reaches, Bool.and_eq_true, List.all_eq_true, Bool.or_eq_true,
    Bool.not_eq_true', decide_eq_true_eq, ← Bool.not_eq_true, List.isPrefixOf_iff_prefix]
  refine and_congr_right fun _ => forall_congr' fun item => ?_
  tauto

/-- A path that is reached is reached through paths that are. -/
theorem reaches_of_prefix {path front : Path} (h : snapshot.reaches path = true)
    (hfront : front <+: path) : snapshot.reaches front = true := by
  obtain ⟨hlistable, hdirs⟩ := reaches_iff.mp h
  refine reaches_iff.mpr ⟨hlistable, fun item hitem hpre hne => ?_⟩
  refine hdirs item hitem (hpre.trans hfront) fun heq => ?_
  exact hne (hpre.eq_of_length_le (heq ▸ hfront.length_le))

/-- The part of a snapshot that the walk sees. -/
def Snapshot.walked (snapshot : Snapshot) : Snapshot where
  root := snapshot.root
  isDirectory := snapshot.isDirectory
  listable := snapshot.listable
  items := snapshot.entries
  distinct := snapshot.distinct.sublist (List.filter_sublist.map Item.path)
  named := fun item hitem => snapshot.named item (mem_entries.mp hitem).1
  nested := by
    intro item hitem hne
    obtain ⟨hmem, hreaches⟩ := mem_entries.mp hitem
    obtain ⟨parent, hparent, hpath, hplain⟩ := snapshot.nested item hmem hne
    refine ⟨parent, mem_entries.mpr ⟨hparent, reaches_of_prefix hreaches ?_⟩, hpath, hplain⟩
    rw [hpath]
    exact List.dropLast_prefix _

/-- The walk comes past all of what it sees. -/
theorem entries_walked (snapshot : Snapshot) : snapshot.walked.entries = snapshot.entries := by
  refine List.filter_eq_self.mpr fun item hitem => ?_
  obtain ⟨hlistable, hdirs⟩ := reaches_iff.mp (mem_entries.mp hitem).2
  exact reaches_iff.mpr ⟨hlistable, fun dir hdir => hdirs dir (mem_entries.mp hdir).1⟩

/-- All but plain directories is in directories that can be listed. -/
def Snapshot.Listed (snapshot : Snapshot) : Prop :=
  ∀ item ∈ snapshot.items, item.isPlainDirectory = false → snapshot.reaches item.path = true

instance (snapshot : Snapshot) : Decidable snapshot.Listed :=
  inferInstanceAs (Decidable (∀ item ∈ snapshot.items, _ → _))

theorem listed_walked (snapshot : Snapshot) : snapshot.walked.Listed := by
  intro item hitem _
  have hentry : item ∈ snapshot.walked.entries := by
    rw [entries_walked]
    exact hitem
  exact (mem_entries.mp hentry).2

/-- What is above an entry is a directory. -/
theorem isPlainDirectory_of_prefix {item : Item} (hitem : item ∈ snapshot.items) (n : Nat) :
    ∀ inner ∈ snapshot.items, inner.path.length = n → item.path <+: inner.path →
      item.path ≠ inner.path → item.isPlainDirectory = true := by
  induction n with
  | zero =>
    intro inner hinner hlength
    exact absurd (List.length_eq_zero_iff.mp hlength) (snapshot.named inner hinner).1
  | succ n ih =>
    intro inner hinner hlength hpre hne
    have hshort : item.path.length < inner.path.length :=
      Nat.lt_of_le_of_ne hpre.length_le fun h => hne (hpre.eq_of_length h)
    have hpre : item.path <+: inner.path.dropLast := by
      refine List.prefix_of_prefix_length_le hpre (List.dropLast_prefix _) ?_
      rw [List.length_dropLast]
      omega
    have hparent : inner.path.dropLast ≠ [] := by
      intro hnil
      rw [hnil] at hpre
      exact (snapshot.named item hitem).1 (List.prefix_nil.mp hpre)
    obtain ⟨parent, hmem, hpath, hplain⟩ := snapshot.nested inner hinner hparent
    by_cases heq : item.path = parent.path
    · rwa [eq_of_path hitem hmem heq]
    · refine ih parent hmem ?_ (hpath ▸ hpre) heq
      rw [hpath, List.length_dropLast, hlength]
      rfl

/-- A snapshot is listed when it and every directory below it can be. -/
theorem listed_of_listable (hroot : snapshot.listable = true)
    (h : ∀ item ∈ snapshot.items, item.target ≠ .directory false) : snapshot.Listed := by
  intro inner hinner _
  refine reaches_iff.mpr ⟨hroot, fun item hitem hpre hne => ?_⟩
  have hplain := isPlainDirectory_of_prefix hitem _ inner hinner rfl hpre hne
  rw [Item.isPlainDirectory, Bool.and_eq_true, Item.isDirectory] at hplain
  cases htarget : item.target with
  | directory listable =>
    cases listable with
    | true => rfl
    | false => exact absurd htarget (h item hitem)
  | _ =>
    rw [htarget] at hplain
    exact absurd hplain.1 Bool.false_ne_true

/-! ## The files of a snapshot -/

/-- The snapshot has a file of the path with the content. -/
def Contains (snapshot : Snapshot) (path : Path) (content : List UInt8) : Prop :=
  ∃ item ∈ snapshot.items, item.path = path ∧ item.content = some content

def Item.pair (item : Item) : Path × List UInt8 := (item.path, item.content.getD [])

/-- Paths and contents in the order of the manifest. -/
def pairs (snapshot : Snapshot) : List (Path × List UInt8) := (sortedFiles snapshot).map Item.pair

theorem mem_sortedFiles {item : Item} :
    item ∈ sortedFiles snapshot ↔ item ∈ snapshot.entries ∧ item.content.isSome = true := by
  rw [sortedFiles, List.mem_insertionSort, List.mem_filter]

theorem mem_pairs {path : Path} {content : List UInt8} :
    (path, content) ∈ pairs snapshot ↔ Contains snapshot.walked path content := by
  rw [pairs, List.mem_map]
  constructor
  · rintro ⟨item, hitem, hpair⟩
    obtain ⟨hmem, hsome⟩ := mem_sortedFiles.mp hitem
    obtain ⟨found, hfound⟩ := Option.isSome_iff_exists.mp hsome
    rw [Item.pair, hfound, Prod.mk.injEq] at hpair
    exact ⟨item, hmem, hpair.1, by rw [hfound, ← hpair.2]; rfl⟩
  · rintro ⟨item, hmem, rfl, hcontent⟩
    refine ⟨item, mem_sortedFiles.mpr ⟨hmem, by rw [hcontent]; rfl⟩, ?_⟩
    rw [Item.pair, hcontent]
    rfl

theorem pairs_paths_nodup (snapshot : Snapshot) : ((pairs snapshot).map Prod.fst).Nodup := by
  have hperm : ((sortedFiles snapshot).map Item.path).Perm
      ((snapshot.entries.filter fun item => item.content.isSome).map Item.path) :=
    (List.perm_insertionSort _ _).map Item.path
  have hpaths : (pairs snapshot).map Prod.fst = (sortedFiles snapshot).map Item.path := by
    rw [pairs, List.map_map]
    rfl
  rw [hpaths, hperm.nodup_iff]
  exact snapshot.walked.distinct.sublist (List.filter_sublist.map Item.path)

/-- The manifest's order is strict. -/
theorem pairs_sorted (snapshot : Snapshot) :
    (pairs snapshot).Pairwise fun a b => a.1 < b.1 := by
  have hle : (pairs snapshot).Pairwise fun a b => a.1 ≤ b.1 := by
    rw [pairs, List.pairwise_map]
    have hsorted := List.pairwise_insertionSort
      (fun a b : Item => snapshot.root ++ a.path ≤ snapshot.root ++ b.path)
      (snapshot.entries.filter fun item => item.content.isSome)
    exact hsorted.imp fun h => append_le_append_iff.mp h
  have hne : (pairs snapshot).Pairwise fun a b => a.1 ≠ b.1 :=
    List.pairwise_map.mp (pairs_paths_nodup snapshot)
  exact (hle.and hne).imp fun h => lt_of_le_of_ne h.1 h.2

/-- The walks that come past the same files list them alike. -/
theorem pairs_eq_iff : pairs left = pairs right ↔
    ∀ path content, Contains left.walked path content ↔ Contains right.walked path content := by
  constructor
  · intro h path content
    rw [← mem_pairs, h, mem_pairs]
  · intro h
    have hperm : (pairs left).Perm (pairs right) := by
      refine (List.perm_ext_iff_of_nodup ?_ ?_).mpr ?_
      · exact (pairs_paths_nodup left).of_map
      · exact (pairs_paths_nodup right).of_map
      · rintro ⟨path, content⟩
        rw [mem_pairs, mem_pairs]
        exact h path content
    refine hperm.eq_of_pairwise ?_ (pairs_sorted left) (pairs_sorted right)
    intro a b _ _ hab hba
    exact absurd (lt_trans hab hba) (lt_irrefl _)

/-! ## The digest -/

def recordOf (platform : Platform) (pair : Path × List UInt8) : Record :=
  record platform pair.1 pair.2

/-- What the loop has checked of its files. -/
theorem records_spec {items files : List Item} : ∀ {rest : List Item} {found : List Record},
    records platform approvedRoot items files rest = .ok found →
    found = (rest.map Item.pair).map (recordOf platform) ∧
      (∀ record ∈ found, record.fits) ∧
      ∀ item ∈ rest, ∃ resolved content, item.target = .file resolved content ∧
        approvedRoot.isPrefixOf resolved = true ∧
        (isCheckpointIndex item = true →
          validateCheckpointIndex platform approvedRoot items files item content = .ok ())
  | [], found, h => by
    cases h
    exact ⟨rfl, fun r hr => absurd hr List.not_mem_nil, fun i hi => absurd hi List.not_mem_nil⟩
  | item :: rest, found, h => by
    rw [records] at h
    split at h
    · next resolved content htarget =>
      split at h
      · cases h
      · next hroot =>
        split at h
        · cases h
        · next hindex =>
          split at h
          · cases h
          · next hfits =>
            cases hrest : records platform approvedRoot items files rest with
            | error e =>
              rw [hrest] at h
              cases h
            | ok others =>
              rw [hrest] at h
              cases h
              obtain ⟨hothers, hall, hfiles⟩ := records_spec hrest
              have hpair : item.pair = (item.path, content) := by
                rw [Item.pair, Item.content, htarget]
                rfl
              refine ⟨?_, ?_, ?_⟩
              · rw [List.map_cons, List.map_cons, ← hothers, hpair]
                rfl
              · intro record hrecord
                rcases List.mem_cons.mp hrecord with rfl | hrecord
                · exact not_not.mp hfits
                · exact hall record hrecord
              · intro other hother
                rcases List.mem_cons.mp hother with rfl | hother
                · refine ⟨resolved, content, htarget, not_not.mp hroot, fun his => ?_⟩
                  rwa [if_pos his] at hindex
                · exact hfiles other hother
    · cases h

/-- What a digest was computed of, and what it vouches for. -/
theorem computeSnapshotDigest_spec {digest : Sha256}
    (h : computeSnapshotDigest platform approvedRoot snapshot = .ok digest) :
    digest = platform.sha256 (manifest ((pairs snapshot).map (recordOf platform))) ∧
      (∀ record ∈ (pairs snapshot).map (recordOf platform), record.fits) ∧
      (∀ item ∈ snapshot.entries,
        ¬(item.isDirectory = true ∧ item.isSymlink = true) ∧ item.target ≠ .other) ∧
      (∀ item ∈ sortedFiles snapshot,
        platform.casefold (suffix item.name) ∉ unsafeWeightSuffixes) ∧
      ∀ item ∈ sortedFiles snapshot, ∃ resolved content, item.target = .file resolved content ∧
        approvedRoot.isPrefixOf resolved = true ∧
        (isCheckpointIndex item = true →
          validateCheckpointIndex platform approvedRoot snapshot.items (sortedFiles snapshot) item
            content = .ok ()) := by
  rw [computeSnapshotDigest] at h
  split at h
  · cases h
  · split at h
    · cases h
    · next hlinks =>
      split at h
      · cases h
      · split at h
        · cases h
        · next hweights =>
          split at h
          · cases h
          · cases hrecords : records platform approvedRoot snapshot.items
                (sortedFiles snapshot) (sortedFiles snapshot) with
            | error e =>
              rw [hrecords] at h
              cases h
            | ok found =>
              rw [hrecords] at h
              obtain ⟨hfound, hfits, hfiles⟩ := records_spec hrecords
              rw [hfound] at hfits
              cases h
              refine ⟨by rw [hfound]; rfl, hfits, ?_, ?_, hfiles⟩
              · intro item hitem
                rw [Bool.not_eq_true, List.any_eq_false] at hlinks
                have := hlinks item hitem
                simp only [Bool.or_eq_true, Bool.and_eq_true, decide_eq_true_eq, not_or] at this
                exact this
              · intro item hitem
                rw [Bool.not_eq_true, List.any_eq_false] at hweights
                have := hweights item hitem
                rwa [List.contains_iff_mem] at this

/-! ## Checkpoint indexes -/

/-- The index is a dictionary whose weights all name digested safetensors files. -/
def NamesShards (platform : Platform) (snapshot : Snapshot) (index : Item)
    (content : List UInt8) : Prop :=
  ∃ fields entries, platform.loads content = some (.obj fields) ∧
    weightMap fields = some entries ∧ entries ≠ [] ∧
    ∀ entry ∈ entries, ∃ shard, entry.2 = .str shard ∧ ∃ item ∈ sortedFiles snapshot,
      item.path = index.path.dropLast ++ parts shard ∧ suffix item.name = safetensors

theorem isShardName_suffix {shard : List Char} (h : isShardName shard = true) :
    suffix ((parts shard).getLast?.getD "").toList = safetensors := by
  simp only [isShardName, Bool.and_eq_true, decide_eq_true_eq] at h
  exact h.2

/-- A path that ends with the parts of a shard has the shard's name. -/
theorem name_of_shard {item : Item} {front : Path} {shard : List Char}
    (h : isShardName shard = true) (hpath : item.path = front ++ parts shard) :
    suffix item.name = safetensors := by
  have hsuffix := isShardName_suffix h
  have hne : parts shard ≠ [] := by
    intro hnil
    rw [hnil] at hsuffix
    exact absurd hsuffix (by decide)
  rw [Item.name, hpath, List.getLast?_append_of_ne_nil _ hne]
  exact hsuffix

theorem checkShard_spec {index : Item} {value : Json.Value}
    (h : checkShard approvedRoot snapshot.items (sortedFiles snapshot) index value = .ok ()) :
    ∃ shard, value = .str shard ∧ ∃ item ∈ sortedFiles snapshot,
      item.path = index.path.dropLast ++ parts shard ∧ suffix item.name = safetensors := by
  cases value with
  | str shard =>
    rw [checkShard] at h
    split at h
    · cases h
    · next hshard =>
      split at h
      · cases h
      · next item hitem =>
        have hpath : item.path = index.path.dropLast ++ parts shard := by
          simpa using List.find?_some hitem
        split at h
        · split at h
          · next hfile =>
            rw [Bool.and_eq_true, List.contains_iff_mem] at hfile
            exact ⟨shard, rfl, item, hfile.1, hpath, name_of_shard (not_not.mp hshard) hpath⟩
          · cases h
        · cases h
  | _ => cases h

theorem checkShards_spec {items files : List Item} {index : Item} : ∀ {values : List Json.Value},
    checkShards approvedRoot items files index values = .ok () →
    ∀ value ∈ values, checkShard approvedRoot items files index value = .ok ()
  | [], _, value, hvalue => absurd hvalue List.not_mem_nil
  | first :: values, h, value, hvalue => by
    rw [checkShards] at h
    split at h
    · cases h
    · next hfirst =>
      rcases List.mem_cons.mp hvalue with rfl | hvalue
      · exact hfirst
      · exact checkShards_spec h value hvalue

theorem validateCheckpointIndex_spec {index : Item} {content : List UInt8}
    (h : validateCheckpointIndex platform approvedRoot snapshot.items (sortedFiles snapshot) index
      content = .ok ()) :
    NamesShards platform snapshot index content := by
  rw [validateCheckpointIndex] at h
  split at h
  · cases h
  · split at h
    · next fields hloads =>
      split at h
      · cases h
      · next entries hne hentries =>
        refine ⟨fields, entries, hloads, hentries, hne, fun entry hentry => ?_⟩
        exact checkShard_spec (checkShards_spec h entry.2 (List.mem_map_of_mem hentry))
      · cases h
    · cases h

/-! ## The result -/

/-- A tree the digest vouches for: no directory links, files below the approved root, no
unsafe weights, and indexes of digested shards only. -/
structure Vouched (platform : Platform) (approvedRoot : Path) (snapshot : Snapshot) : Prop where
  links : ∀ item ∈ snapshot.items, item.isDirectory = true → item.isSymlink = false
  files : ∀ item ∈ snapshot.items, item.isDirectory = false →
    ∃ resolved content, item.target = .file resolved content ∧ approvedRoot <+: resolved
  weights : ∀ item ∈ snapshot.items, item.isDirectory = false →
    platform.casefold (suffix item.name) ∉ unsafeWeightSuffixes
  indexes : ∀ item ∈ snapshot.items, ∀ content, item.content = some content →
    ".index.json".toList <:+ item.name → NamesShards platform snapshot item content

theorem isDirectory_of_content {item : Item} {content : List UInt8}
    (h : item.content = some content) : item.isDirectory = false := by
  cases htarget : item.target with
  | file resolved found => rw [Item.isDirectory, htarget]
  | _ =>
    rw [Item.content, htarget] at h
    cases h

theorem namesShards_walked {index : Item} {content : List UInt8}
    (h : NamesShards platform snapshot index content) :
    NamesShards platform snapshot.walked index content := by
  have hfiles : sortedFiles snapshot.walked = sortedFiles snapshot := by
    rw [sortedFiles, entries_walked]
    rfl
  unfold NamesShards
  rw [hfiles]
  exact h

/-- A digest vouches for what the walk has seen. -/
theorem vouched_of_digest {digest : Sha256}
    (h : computeSnapshotDigest platform approvedRoot snapshot = .ok digest) :
    Vouched platform approvedRoot snapshot.walked := by
  obtain ⟨-, -, hlinks, hweights, hfiles⟩ := computeSnapshotDigest_spec h
  have hsorted : ∀ item ∈ snapshot.entries, item.isDirectory = false →
      item ∈ sortedFiles snapshot := by
    intro item hitem hdirectory
    refine mem_sortedFiles.mpr ⟨hitem, ?_⟩
    cases htarget : item.target with
    | directory listable =>
      rw [Item.isDirectory, htarget] at hdirectory
      cases hdirectory
    | other => exact absurd htarget (hlinks item hitem).2
    | file resolved content =>
      rw [Item.content, htarget]
      rfl
  constructor
  · intro item hitem hdirectory
    exact Bool.eq_false_iff.mpr fun hlink => (hlinks item hitem).1 ⟨hdirectory, hlink⟩
  · intro item hitem hdirectory
    obtain ⟨resolved, content, htarget, hroot, -⟩ := hfiles item (hsorted item hitem hdirectory)
    exact ⟨resolved, content, htarget, List.isPrefixOf_iff_prefix.mp hroot⟩
  · intro item hitem hdirectory
    exact hweights item (hsorted item hitem hdirectory)
  · intro item hitem content hcontent hname
    obtain ⟨resolved, found, htarget, -, hindex⟩ :=
      hfiles item (hsorted item hitem (isDirectory_of_content hcontent))
    have hfound : found = content := by
      rw [Item.content, htarget] at hcontent
      exact Option.some.inj hcontent
    rw [hfound] at hindex
    exact namesShards_walked
      (validateCheckpointIndex_spec (hindex (List.isSuffixOf_iff_suffix.mpr hname)))

/-- The walk has seen all that a listed snapshot has to vouch for. -/
theorem Vouched.of_walked (h : Vouched platform approvedRoot snapshot.walked)
    (hlisted : snapshot.Listed) : Vouched platform approvedRoot snapshot := by
  have hseen : ∀ item ∈ snapshot.items, item.isPlainDirectory = false → item ∈ snapshot.entries :=
    fun item hitem hplain => mem_entries.mpr ⟨hitem, hlisted item hitem hplain⟩
  have hfile : ∀ item ∈ snapshot.items, item.isDirectory = false → item ∈ snapshot.entries := by
    intro item hitem hdirectory
    refine hseen item hitem ?_
    rw [Item.isPlainDirectory, hdirectory]
    rfl
  constructor
  · intro item hitem hdirectory
    by_contra hlink
    rw [Bool.not_eq_false] at hlink
    have hplain : item.isPlainDirectory = false := by
      rw [Item.isPlainDirectory, hlink, Bool.not_true, Bool.and_false]
    exact absurd hlink (by rw [h.links item (hseen item hitem hplain) hdirectory]; decide)
  · intro item hitem hdirectory
    exact h.files item (hfile item hitem hdirectory) hdirectory
  · intro item hitem hdirectory
    exact h.weights item (hfile item hitem hdirectory) hdirectory
  · intro item hitem content hcontent hname
    obtain ⟨fields, entries, hloads, hentries, hne, hshards⟩ :=
      h.indexes item (hfile item hitem (isDirectory_of_content hcontent)) content hcontent hname
    refine ⟨fields, entries, hloads, hentries, hne, fun entry hentry => ?_⟩
    obtain ⟨shard, hshard, file, hmem, hpath, hsuffix⟩ := hshards entry hentry
    obtain ⟨hentry, hcontent⟩ := mem_sortedFiles.mp hmem
    rw [entries_walked] at hentry
    exact ⟨shard, hshard, file, mem_sortedFiles.mpr ⟨hentry, hcontent⟩, hpath, hsuffix⟩

theorem contains_walked (hlisted : snapshot.Listed) {path : Path} {content : List UInt8} :
    Contains snapshot.walked path content ↔ Contains snapshot path content := by
  constructor
  · rintro ⟨item, hitem, hpair⟩
    exact ⟨item, (mem_entries.mp hitem).1, hpair⟩
  · rintro ⟨item, hitem, hpath, hcontent⟩
    refine ⟨item, mem_entries.mpr ⟨hitem, hlisted item hitem ?_⟩, hpath, hcontent⟩
    rw [Item.isPlainDirectory, isDirectory_of_content hcontent]
    rfl

/-- A snapshot has nothing but directories that the walk has not seen when what it has
seen has all its files and it is vouched for. -/
theorem listed_of_walked (hvouched : Vouched platform approvedRoot snapshot)
    (hsame : ∀ path content,
      Contains snapshot path content → Contains snapshot.walked path content) :
    snapshot.Listed := by
  intro item hitem hplain
  cases hdirectory : item.isDirectory with
  | true =>
    rw [Item.isPlainDirectory, hdirectory, hvouched.links item hitem hdirectory] at hplain
    cases hplain
  | false =>
    obtain ⟨resolved, content, htarget, -⟩ := hvouched.files item hitem hdirectory
    have hcontent : item.content = some content := by rw [Item.content, htarget]
    obtain ⟨seen, hseen, hpath, -⟩ := hsame item.path content ⟨item, hitem, rfl, hcontent⟩
    rw [← hpath]
    exact (mem_entries.mp hseen).2

/-! ## The part that is seen has the digest of the whole -/

theorem checkShard_walked {index : Item} {value : Json.Value}
    (h : checkShard approvedRoot snapshot.items (sortedFiles snapshot) index value = .ok ()) :
    checkShard approvedRoot snapshot.entries (sortedFiles snapshot) index value = .ok () := by
  cases value with
  | str shard =>
    rw [checkShard] at h ⊢
    split at h
    · cases h
    · next hshard =>
      rw [if_neg hshard]
      split at h
      · cases h
      · next item hitem =>
        split at h
        · next resolved content htarget =>
          split at h
          · next hfile =>
            have hfiles := hfile
            rw [Bool.and_eq_true, List.contains_iff_mem] at hfiles
            have hseen : item ∈ snapshot.entries := (mem_sortedFiles.mp hfiles.1).1
            have hfound : (snapshot.entries.find? fun item =>
                item.path = index.path.dropLast ++ parts shard) = some item := by
              cases hfind : snapshot.entries.find? fun item =>
                  item.path = index.path.dropLast ++ parts shard with
              | none =>
                exact absurd (List.find?_some hitem) (List.find?_eq_none.mp hfind item hseen)
              | some other =>
                have hother := mem_entries.mp (List.mem_of_find?_eq_some hfind)
                have hpath : other.path = index.path.dropLast ++ parts shard := by
                  simpa using List.find?_some hfind
                have hitemPath : item.path = index.path.dropLast ++ parts shard := by
                  simpa using List.find?_some hitem
                rw [eq_of_path hother.1 (mem_entries.mp hseen).1 (hpath.trans hitemPath.symm)]
            rw [hfound]
            simp only [htarget]
            rw [if_pos hfile]
          · cases h
        · cases h
  | _ => cases h

theorem checkShards_walked {index : Item} : ∀ {values : List Json.Value},
    checkShards approvedRoot snapshot.items (sortedFiles snapshot) index values = .ok () →
    checkShards approvedRoot snapshot.entries (sortedFiles snapshot) index values = .ok ()
  | [], _ => rfl
  | value :: values, h => by
    rw [checkShards] at h ⊢
    split at h
    · cases h
    · next hvalue =>
      rw [checkShard_walked hvalue]
      exact checkShards_walked h

theorem validateCheckpointIndex_walked {index : Item} {content : List UInt8}
    (h : validateCheckpointIndex platform approvedRoot snapshot.items (sortedFiles snapshot) index
      content = .ok ()) :
    validateCheckpointIndex platform approvedRoot snapshot.entries (sortedFiles snapshot) index
      content = .ok () := by
  rw [validateCheckpointIndex] at h ⊢
  split at h
  · cases h
  · next hsize =>
    rw [if_neg hsize]
    split at h
    · next fields hloads =>
      split at h
      · cases h
      · next entries hne hentries => exact checkShards_walked h
      · cases h
    · cases h

theorem records_walked : ∀ {rest : List Item} {found : List Record},
    records platform approvedRoot snapshot.items (sortedFiles snapshot) rest = .ok found →
    records platform approvedRoot snapshot.entries (sortedFiles snapshot) rest = .ok found
  | [], _, h => h
  | item :: rest, found, h => by
    rw [records] at h ⊢
    split at h
    · next resolved content htarget =>
      split at h
      · cases h
      · next hroot =>
        rw [if_neg hroot]
        split at h
        · cases h
        · next hindex =>
          have hindex : (if isCheckpointIndex item then validateCheckpointIndex platform
              approvedRoot snapshot.entries (sortedFiles snapshot) item content
              else .ok ()) = .ok () := by
            split at hindex
            · next his => rw [if_pos his, validateCheckpointIndex_walked hindex]
            · next his => rw [if_neg his]
          rw [hindex]
          split at h
          · cases h
          · next hfits =>
            simp only [if_neg hfits]
            cases hrest : records platform approvedRoot snapshot.items (sortedFiles snapshot)
                rest with
            | error e =>
              rw [hrest] at h
              cases h
            | ok others =>
              rw [hrest] at h
              rw [records_walked hrest]
              exact h
    · cases h

/-- The part of a snapshot that the walk sees has the digest of the snapshot. -/
theorem computeSnapshotDigest_walked {digest : Sha256}
    (h : computeSnapshotDigest platform approvedRoot snapshot = .ok digest) :
    computeSnapshotDigest platform approvedRoot snapshot.walked = .ok digest := by
  have hfiles : sortedFiles snapshot.walked = sortedFiles snapshot := by
    rw [sortedFiles, entries_walked]
    rfl
  have hroot : snapshot.walked.root = snapshot.root := rfl
  have hdirectory : snapshot.walked.isDirectory = snapshot.isDirectory := rfl
  have hitems : snapshot.walked.items = snapshot.entries := rfl
  rw [computeSnapshotDigest] at h ⊢
  simp only [entries_walked, hfiles, hroot, hdirectory, hitems]
  cases hrecords : records platform approvedRoot snapshot.items (sortedFiles snapshot)
      (sortedFiles snapshot) with
  | ok found =>
    rw [hrecords] at h
    rw [records_walked hrecords]
    exact h
  | error e =>
    rw [hrecords] at h
    repeat first | cases h | split at h

/-- What is hashed for a snapshot: its files, and its manifest. -/
def hashed (platform : Platform) (snapshot : Snapshot) : List (List UInt8) :=
  manifest ((pairs snapshot).map (recordOf platform)) :: (pairs snapshot).map Prod.snd

/-- The hash tells apart what it is given for two snapshots. -/
def CollisionFree (platform : Platform) (left right : Snapshot) : Prop :=
  ∀ x ∈ hashed platform left, ∀ y ∈ hashed platform right,
    platform.sha256 x = platform.sha256 y → x = y

theorem pair_of_record {a b : Path × List UInt8}
    (ha : ∀ name ∈ a.1, isName name = true) (hb : ∀ name ∈ b.1, isName name = true)
    (hfree : platform.sha256 a.2 = platform.sha256 b.2 → a.2 = b.2)
    (h : recordOf platform a = recordOf platform b) : a = b := by
  have hpath := encodePath_injective ha hb (congrArg Record.path h)
  exact Prod.ext hpath (hfree (congrArg Record.digest h))

theorem pairs_of_records {l l' : List (Path × List UInt8)}
    (hinj : ∀ a ∈ l, ∀ b ∈ l', recordOf platform a = recordOf platform b → a = b)
    (h : l.map (recordOf platform) = l'.map (recordOf platform)) : l = l' := by
  induction l generalizing l' with
  | nil =>
    cases l' with
    | nil => rfl
    | cons b l' => cases h
  | cons a l ih =>
    cases l' with
    | nil => cases h
    | cons b l' =>
      rw [List.map_cons, List.map_cons, List.cons.injEq] at h
      rw [hinj a List.mem_cons_self b List.mem_cons_self h.1,
        ih (fun x hx y hy => hinj x (List.mem_cons_of_mem a hx) y (List.mem_cons_of_mem b hy)) h.2]

theorem named_of_mem_pairs {pair : Path × List UInt8} (h : pair ∈ pairs snapshot) :
    ∀ name ∈ pair.1, isName name = true := by
  obtain ⟨item, hitem, rfl⟩ := List.mem_map.mp h
  exact (snapshot.walked.named item (mem_sortedFiles.mp hitem).1).2

/-- Digests of two snapshots are equal exactly when the walks have come past the same
files, wherever the snapshots are and in whatever order their entries are listed. -/
theorem digest_eq_iff {approvedRight : Path} {digest digest' : Sha256}
    (hleft : computeSnapshotDigest platform approvedRoot left = .ok digest)
    (hright : computeSnapshotDigest platform approvedRight right = .ok digest')
    (hfree : CollisionFree platform left right) :
    digest = digest' ↔
      ∀ path content, Contains left.walked path content ↔ Contains right.walked path content := by
  obtain ⟨hdigest, hfits, -⟩ := computeSnapshotDigest_spec hleft
  obtain ⟨hdigest', hfits', -⟩ := computeSnapshotDigest_spec hright
  rw [← pairs_eq_iff, hdigest, hdigest']
  constructor
  · intro h
    have hmanifest := hfree _ List.mem_cons_self _ List.mem_cons_self h
    refine pairs_of_records (fun a ha b hb => ?_) (manifest_injective hfits hfits' hmanifest)
    exact pair_of_record (named_of_mem_pairs ha) (named_of_mem_pairs hb)
      (hfree _ (List.mem_cons_of_mem _ (List.mem_map_of_mem ha)) _
        (List.mem_cons_of_mem _ (List.mem_map_of_mem hb)))
  · intro h
    rw [h]

/-- The digest of a snapshot vouches for it and tells it from every listed snapshot of
other files, wherever that is and in whatever order its entries come, exactly when the
snapshot itself is listed. -/
theorem snapshot_digest_identifies {digest : Sha256}
    (hleft : computeSnapshotDigest platform approvedRoot left = .ok digest)
    (hself : CollisionFree platform left left) :
    (Vouched platform approvedRoot left ∧ ∀ approvedRight right digest',
      computeSnapshotDigest platform approvedRight right = .ok digest' → right.Listed →
      CollisionFree platform left right →
      (digest = digest' ↔
        ∀ path content, Contains left path content ↔ Contains right path content)) ↔
    left.Listed := by
  constructor
  · rintro ⟨hvouched, hsame⟩
    refine listed_of_walked hvouched fun path content => Iff.mp ?_
    have hpairs : pairs left.walked = pairs left := by
      rw [pairs, sortedFiles, entries_walked]
      rfl
    have hfree : CollisionFree platform left left.walked := by
      unfold CollisionFree hashed
      rw [hpairs]
      exact hself
    exact (hsame approvedRoot left.walked digest (computeSnapshotDigest_walked hleft)
      (listed_walked left) hfree).mp rfl path content
  · intro hlisted
    refine ⟨(vouched_of_digest hleft).of_walked hlisted, ?_⟩
    intro approvedRight right digest' hright hlistedRight hfree
    rw [digest_eq_iff hleft hright hfree]
    refine forall₂_congr fun path content => ?_
    rw [contains_walked hlisted, contains_walked hlistedRight]

/-! ## A model in two weight files, and a tree that hides one -/

def configJson : List UInt8 := encodeUtf8 "\x7b\"model_type\":\"gpt2\"\x7d".toList

def indexJson : List UInt8 := encodeUtf8 ("\x7b\"weight_map\":".toList ++
  "\x7b\"wte\":\"weights/a.safetensors\",\"wpe\":\"weights/b.safetensors\"\x7d\x7d".toList)

/-- The records of the model whose second weight file has this digest. -/
def modelRecords (digest : Sha256) : List Record :=
  [⟨encodePath ["config.json"], 21,
      0xf32935a28729243f53a44af6bcea89a1ad97da401941a25b4294059bf0b9eb21#256⟩,
    ⟨encodePath ["model.safetensors.index.json"], 76,
      0x1ce81a9957af5c522160461265d53191c2887f4fcf12edc98f4ba5b577407861#256⟩,
    ⟨encodePath ["weights", "a.safetensors"], 3,
      0x039058c6f2c0cb492c533b0a4d14ef77cc0f78abccced5287d84a1a2011cfb81#256⟩,
    ⟨encodePath ["weights", "b.safetensors"], 2, digest⟩]

/-- SHA-256 of what is hashed below. -/
def digests : List (List UInt8 × Sha256) :=
  [(configJson, 0xf32935a28729243f53a44af6bcea89a1ad97da401941a25b4294059bf0b9eb21#256),
    (indexJson, 0x1ce81a9957af5c522160461265d53191c2887f4fcf12edc98f4ba5b577407861#256),
    ([1, 2, 3], 0x039058c6f2c0cb492c533b0a4d14ef77cc0f78abccced5287d84a1a2011cfb81#256),
    ([4, 5], 0x2fa1b377bf67309f65e5e7bc9d924345ca648dec4e601a398a9cb497dcba3765#256),
    ([4, 6], 0x4c989e7b0bdd8d9c81d6e18d9b1530fc7251a6cf81ff8db86bfcf5d6ab3b88cc#256),
    (manifest (modelRecords
        0x2fa1b377bf67309f65e5e7bc9d924345ca648dec4e601a398a9cb497dcba3765#256),
      0x8a1052dcde010f66df18b4fea9aeac32dbecfe473a226a67d02616cdc1d71ea9#256),
    (manifest (modelRecords
        0x4c989e7b0bdd8d9c81d6e18d9b1530fc7251a6cf81ff8db86bfcf5d6ab3b88cc#256),
      0x298993c7c64d8b2df5dc17a67b524b0a389ed2e2d5f55cdd50a53b63af5a50d8#256),
    (manifest [⟨encodePath ["w.safetensors"], 3,
        0x039058c6f2c0cb492c533b0a4d14ef77cc0f78abccced5287d84a1a2011cfb81#256⟩],
      0xef3d71ff303ae25a5e2007c6dc491b2fe7965b6e8d1b7e89af6be88a7e3f8303#256)]

def tabled : Platform where
  sha256 := fun bytes => (digests.lookup bytes).getD 0
  loads := fun bytes => Manifests.readJson (fun _ => none) ⟨bytes.toArray⟩
  casefold := List.map Char.toLower

/-- A snapshot in a cache as the hub lays it out, of links to blobs, with an empty
directory that cannot be listed. -/
def cachedItems (b : List UInt8) : List Item :=
  [⟨["weights"], false, .directory true⟩,
    ⟨["weights", "b.safetensors"], true, .file ["cache", "blobs", "b"] b⟩,
    ⟨["weights", "a.safetensors"], true, .file ["cache", "blobs", "a"] [1, 2, 3]⟩,
    ⟨["locks"], false, .directory false⟩,
    ⟨["model.safetensors.index.json"], true, .file ["cache", "blobs", "index"] indexJson⟩,
    ⟨["config.json"], true, .file ["cache", "blobs", "config"] configJson⟩]

def cached : Snapshot where
  root := ["cache", "snapshots", "main"]
  isDirectory := true
  listable := true
  items := cachedItems [4, 5]
  distinct := by decide
  named := by decide
  nested := by decide

/-- Another revision of the model, with other weights. -/
def retrained : Snapshot where
  root := ["cache", "snapshots", "next"]
  isDirectory := true
  listable := true
  items := cachedItems [4, 6]
  distinct := by decide
  named := by decide
  nested := by decide

/-- The same model as plain files somewhere else. -/
def copied : Snapshot where
  root := ["models", "gpt2"]
  isDirectory := true
  listable := true
  items :=
    [⟨["config.json"], false, .file ["models", "gpt2", "config.json"] configJson⟩,
      ⟨["model.safetensors.index.json"], false,
        .file ["models", "gpt2", "model.safetensors.index.json"] indexJson⟩,
      ⟨["weights"], false, .directory true⟩,
      ⟨["weights", "a.safetensors"], false,
        .file ["models", "gpt2", "weights", "a.safetensors"] [1, 2, 3]⟩,
      ⟨["weights", "b.safetensors"], false,
        .file ["models", "gpt2", "weights", "b.safetensors"] [4, 5]⟩]
  distinct := by decide
  named := by decide
  nested := by decide

instance (platform : Platform) (left right : Snapshot) :
    Decidable (CollisionFree platform left right) :=
  inferInstanceAs (Decidable (∀ x ∈ _, ∀ y ∈ _, _ → _))

theorem model_digests :
    computeSnapshotDigest tabled ["cache"] cached =
        .ok 0x8a1052dcde010f66df18b4fea9aeac32dbecfe473a226a67d02616cdc1d71ea9#256 ∧
      computeSnapshotDigest tabled ["models"] copied =
        .ok 0x8a1052dcde010f66df18b4fea9aeac32dbecfe473a226a67d02616cdc1d71ea9#256 ∧
      computeSnapshotDigest tabled ["cache"] retrained =
        .ok 0x298993c7c64d8b2df5dc17a67b524b0a389ed2e2d5f55cdd50a53b63af5a50d8#256 := by
  decide +kernel

theorem model_collisionFree : CollisionFree tabled cached cached ∧
    CollisionFree tabled cached copied ∧ CollisionFree tabled cached retrained := by
  decide +kernel

theorem snapshot_digest_identifies_model :
    Vouched tabled ["cache"] cached ∧
      (∀ path content, Contains cached path content ↔ Contains copied path content) ∧
      ¬∀ path content, Contains cached path content ↔ Contains retrained path content := by
  obtain ⟨hcached, hcopied, hretrained⟩ := model_digests
  obtain ⟨hself, hfree, hfree'⟩ := model_collisionFree
  obtain ⟨hvouched, hsame⟩ := (snapshot_digest_identifies hcached hself).mpr (by decide)
  refine ⟨hvouched, ?_, ?_⟩
  · exact (hsame ["models"] copied _ hcopied (listed_of_listable rfl (by decide)) hfree).mp rfl
  · intro h
    have heq := (hsame ["cache"] retrained _ hretrained (by decide) hfree').mpr h
    exact absurd heq (by decide)

/-- One weight file. -/
def single : Snapshot where
  root := ["cache", "snapshots", "main"]
  isDirectory := true
  listable := true
  items :=
    [⟨["w.safetensors"], false, .file ["cache", "snapshots", "main", "w.safetensors"] [1, 2, 3]⟩]
  distinct := by decide
  named := by decide
  nested := by decide

/-- A file of pickled weights. -/
def pickled : Item :=
  ⟨["hidden", "pytorch_model.bin"], false,
    .file ["cache", "snapshots", "main", "hidden", "pytorch_model.bin"] [4, 5]⟩

/-- The same weight file, and pickled ones in a directory that cannot be listed. -/
def concealing : Snapshot where
  root := ["cache", "snapshots", "main"]
  isDirectory := true
  listable := true
  items :=
    [⟨["w.safetensors"], false, .file ["cache", "snapshots", "main", "w.safetensors"] [1, 2, 3]⟩,
      ⟨["hidden"], false, .directory false⟩, pickled]
  distinct := by decide
  named := by decide
  nested := by decide

/-- Two trees of different files are accepted with one digest, and one of them holds
unsafe weights. -/
theorem snapshot_digest_overlooks : ∃ digest,
    computeSnapshotDigest tabled ["cache"] single = .ok digest ∧
      computeSnapshotDigest tabled ["cache"] concealing = .ok digest ∧
      CollisionFree tabled single concealing ∧
      (¬∀ path content, Contains single path content ↔ Contains concealing path content) ∧
      ¬Vouched tabled ["cache"] concealing := by
  have hdigests : computeSnapshotDigest tabled ["cache"] single =
        .ok 0xef3d71ff303ae25a5e2007c6dc491b2fe7965b6e8d1b7e89af6be88a7e3f8303#256 ∧
      computeSnapshotDigest tabled ["cache"] concealing =
        .ok 0xef3d71ff303ae25a5e2007c6dc491b2fe7965b6e8d1b7e89af6be88a7e3f8303#256 ∧
      CollisionFree tabled single concealing := by
    decide +kernel
  refine ⟨_, hdigests.1, hdigests.2.1, hdigests.2.2, ?_, ?_⟩
  · intro h
    obtain ⟨item, hitem, hpath, -⟩ :=
      (h pickled.path [4, 5]).mpr ⟨pickled, by decide, rfl, rfl⟩
    have hnone : ∀ item ∈ single.items, item.path ≠ pickled.path := by decide
    exact hnone item hitem hpath
  · intro h
    exact h.weights pickled (by decide) rfl (by decide)

end CorpusKit.Snapshots
