import CorpusKit.Persistence.FilesystemStore

/-! # What a crash leaves of the filesystem store

A put stopped between its two renames leaves an object no later put or read
accepts. While that does not happen, and the keys of a run can stand beside each
other in one tree, every file is a whole object, metadata, or an upload no
listing shows. -/

namespace CorpusKit

namespace FilesystemObjectStore

open Files ObjectStore

variable {hash : Bytes → Sha256} {disk : Disk} {p q : Path} {key : String} {r s : PutRequest}
  {requests : List PutRequest} {upload sidecar : List Char} {now : Nat}

/-! ## The paths of keys -/

/-- The components of a key: none has a dot. -/
structure KeyPath (p : Path) : Prop where
  nonempty : p ≠ []
  segment : ∀ s ∈ p, Segment s

/-- Of no key: a component has a dot. -/
def Dotted (p : Path) : Prop := ∃ s ∈ p, '.' ∈ s

theorem KeyPath.not_dotted (h : KeyPath p) : ¬ Dotted p := by
  rintro ⟨s, hs, hdot⟩
  have hsafe := (h.segment s hs).safe _ hdot
  rw [isKeyChar_dot] at hsafe
  cases hsafe

theorem Dotted.of_prefix (h : Dotted p) (hq : p <+: q) : Dotted q := by
  rcases h with ⟨s, hs, hdot⟩
  exact ⟨s, hq.subset hs, hdot⟩

theorem dot_metadataSuffix : '.' ∈ metadataSuffix := by decide +kernel

theorem dot_uploadPrefix : '.' ∈ uploadPrefix := by decide +kernel

theorem dot_metadataPrefix : '.' ∈ metadataPrefix := by decide +kernel

theorem mem_withName (f : List Char → List Char) : f (p.getLast?.getD []) ∈ withName p f := by
  simp [withName]

theorem dotted_metadataPath (p : Path) : Dotted (metadataPath p) := by
  refine ⟨_, mem_withName fun name => name ++ metadataSuffix, ?_⟩
  exact List.mem_append_right _ dot_metadataSuffix

theorem dotted_temporaryPath (p : Path) (name : List Char) {first : List Char}
    (h : '.' ∈ first) : Dotted (temporaryPath p first name) := by
  refine ⟨_, mem_withName fun _ => first ++ name, ?_⟩
  exact List.mem_append_left name h

theorem getLast?_withName (f : List Char → List Char) :
    (withName p f).getLast? = some (f (p.getLast?.getD [])) := by
  simp [withName]

theorem withName_self (h : p ≠ []) : withName p id = p := by
  simp [withName, List.getLast?_eq_some_getLast h, List.dropLast_append_getLast h]

/-- A path is known by its metadata's path. -/
theorem metadataPath_inj (hp : p ≠ []) (hq : q ≠ []) (h : metadataPath p = metadataPath q) :
    p = q := by
  have hparts := List.append_inj' h rfl
  have hlast := List.append_cancel_right (List.singleton_injective hparts.2)
  rw [← withName_self hp, ← withName_self hq]
  simp [withName, hparts.1, hlast]

/-- Metadata never takes the name of an upload. -/
theorem metadataPath_ne_temporaryPath (hp : KeyPath p) (name : List Char) {first : List Char}
    (hfirst : first.head? = some '.') : metadataPath p ≠ temporaryPath q first name := by
  intro h
  have hlast := congrArg List.getLast? h
  rw [metadataPath, temporaryPath, getLast?_withName, getLast?_withName,
    List.getLast?_eq_some_getLast hp.nonempty] at hlast
  have hs := hp.segment _ (List.getLast_mem hp.nonempty)
  have hhead := congrArg List.head? (Option.some.inj hlast)
  rw [Option.getD_some, List.head?_append_of_ne_nil _ hs.nonempty, List.head?_append, hfirst,
    Option.some_or] at hhead
  have hsafe := hs.safe '.' (List.mem_of_mem_head? hhead)
  rw [isKeyChar_dot] at hsafe
  cases hsafe

theorem isWord_segment {w : List Char} (hw : Words.IsWord isSlash w)
    (hsafe : ∀ c ∈ w, isKeyChar c = true) : Segment w where
  nonempty := hw.ne
  safe := hsafe
  whole hslash := by
    have := hw.free _ hslash
    simp [isSlash] at this

theorem validKey_chars (h : validKey key = true) : isSafeKey key.toList = true := by
  simp only [validKey, Bool.and_eq_true] at h
  exact h.1.1

theorem isSafeKey_cases {t : List Char} (h : isSafeKey t = true) :
    ∃ c rest, t = c :: rest ∧ ObjectStore.isLowerAlnum c = true ∧ rest.length ≤ 511 ∧
      ∀ d ∈ rest, isKeyChar d = true := by
  cases t with
  | nil => cases h
  | cons c rest =>
    simp only [isSafeKey, Bool.and_eq_true, decide_eq_true_eq, List.all_eq_true] at h
    exact ⟨c, rest, rfl, h.1.1, h.1.2, h.2⟩

theorem isSlash_alnum {c : Char} (h : ObjectStore.isLowerAlnum c = true) : isSlash c = false := by
  rw [isSlash, beq_eq_false_iff_ne]
  rintro rfl
  revert h
  decide

/-- The first component begins with the key's first character. -/
theorem words_first {c : Char} (rest : List Char) (hc : isSlash c = false) :
    ∃ w ws, Words.words isSlash (c :: rest) = (c :: w) :: ws := by
  obtain ⟨w, ws, hsplit, -⟩ := Words.splitOnP_first isSlash rest
  refine ⟨w, ws.filter fun w => !w.isEmpty, ?_⟩
  rw [Words.words, List.splitOnP_cons_eq_if_modifyHead, hc, if_neg Bool.false_ne_true, hsplit]
  rfl

theorem keyPath_components (h : validKey key = true) : KeyPath (components key) := by
  obtain ⟨c, rest, hkey, hc, -, hrest⟩ := isSafeKey_cases (validKey_chars h)
  have hchars : ∀ d ∈ key.toList, isKeyChar d = true := by
    intro d hd
    rw [hkey] at hd
    rcases List.mem_cons.mp hd with rfl | hd
    · exact isKeyChar_of_isLowerAlnum hc
    · exact hrest d hd
  constructor
  · obtain ⟨w, ws, hwords⟩ := words_first rest (isSlash_alnum hc)
    rw [components, hkey, hwords]
    exact List.cons_ne_nil _ _
  · intro s hs
    obtain ⟨hword, hinside⟩ := Words.mem_words hs
    exact isWord_segment hword fun d hd => hchars d (hinside.subset hd)

theorem path_eq_join (p : Path) : path p = Words.join '/' p := by
  induction p with
  | nil => rfl
  | cons s p ih =>
    cases p with
    | nil => rfl
    | cons t p => rw [path, Words.join, ih]

/-- What a listing calls an object is again a key. -/
theorem validKey_path (h : validKey key = true) :
    validKey (String.ofList (path (components key))) = true := by
  have hp := keyPath_components h
  obtain ⟨c, rest, hkey, hc, hlength, -⟩ := isSafeKey_cases (validKey_chars h)
  have hsafe := path_safe hp.segment
  have hshort : (path (components key)).length ≤ 512 := by
    have := Words.length_join_words_le (p := isSlash) (t := key.toList) '/'
    rw [hkey, List.length_cons] at this
    rw [path_eq_join, components, hkey]
    omega
  obtain ⟨tail, htail⟩ : ∃ tail, path (components key) = c :: tail := by
    obtain ⟨w, ws, hwords⟩ := words_first rest (isSlash_alnum hc)
    rw [components, hkey, hwords]
    cases ws with
    | nil => exact ⟨w, rfl⟩
    | cons v ws => exact ⟨w ++ '/' :: path (v :: ws), rfl⟩
  have hchars : isSafeKey (path (components key)) = true := by
    rw [htail] at hsafe hshort ⊢
    rw [List.length_cons] at hshort
    simp only [isSafeKey, Bool.and_eq_true, decide_eq_true_eq, List.all_eq_true]
    exact ⟨⟨hc, by omega⟩, fun d hd => hsafe d (List.mem_cons_of_mem c hd)⟩
  simp only [validKey, String.toList_ofList, Bool.and_eq_true, Bool.not_eq_true',
    decide_eq_false_iff_not]
  exact ⟨⟨hchars, hasDoubleSlash_path hp.segment⟩, no_parent hsafe⟩

/-! ## Requests that can stand beside each other -/

structure Accepted (hash : Bytes → Sha256) (r : PutRequest) : Prop where
  key : validKey r.key = true
  digest : r.sha256 = hash r.content
  mediaType : validMediaType r.mediaType = true

theorem accepted_iff : validatePut hash r = .ok () ↔ Accepted hash r := by
  unfold validatePut
  constructor
  · intro h
    split at h
    · cases h
    · next hkey =>
      split at h
      · cases h
      · next hdigest =>
        split at h
        · next hmedia => exact ⟨by simpa using hkey, not_not.mp hdigest, hmedia⟩
        · cases h
  · intro h
    simp [h.key, ← h.digest, h.mediaType]

/-- Puts of one path carry one object, and no path is a directory of another. -/
structure Compatible (r s : PutRequest) : Prop where
  same : components r.key = components s.key → r.content = s.content ∧ r.mediaType = s.mediaType
  apart : components r.key <+: components s.key → components r.key = components s.key

structure Coherent (hash : Bytes → Sha256) (requests : List PutRequest) : Prop where
  accepted : ∀ r ∈ requests, Accepted hash r
  compatible : ∀ r ∈ requests, ∀ s ∈ requests, Compatible r s

theorem Coherent.keyPath (h : Coherent hash requests) (hr : r ∈ requests) :
    KeyPath (components r.key) := keyPath_components (h.accepted r hr).key

/-! ## What a disk holds -/

/-- The object and its metadata. -/
def Holds (disk : Disk) (r : PutRequest) : Prop :=
  (∃ t, disk.files.lookup (components r.key) = some ⟨.bytes r.content, t⟩) ∧
    ∃ t, disk.files.lookup (metadataPath (components r.key)) = some ⟨.metadata r.metadata, t⟩

theorem Holds.frame {disk' : Disk} (h : Holds disk r)
    (hobject : disk'.files.lookup (components r.key) = disk.files.lookup (components r.key))
    (hmetadata : disk'.files.lookup (metadataPath (components r.key)) =
      disk.files.lookup (metadataPath (components r.key))) : Holds disk' r := by
  rcases h with ⟨⟨t, ht⟩, u, hu⟩
  exact ⟨⟨t, hobject.trans ht⟩, u, hmetadata.trans hu⟩

structure Sound (requests : List PutRequest) (disk : Disk) : Prop where
  files : ∀ {q f}, disk.files.lookup q = some f →
    (∃ r ∈ requests, q = components r.key ∧ Holds disk r) ∨
    (∃ r ∈ requests, q = metadataPath (components r.key)) ∨
    ∃ r ∈ requests, ∃ name, q = temporaryPath (components r.key) uploadPrefix name
  directories : ∀ {q}, q ∈ disk.directories → ∃ r ∈ requests, q <+: (components r.key).dropLast

theorem sound_empty : Sound requests {} where
  files h := (Table.not_mem_empty h).elim
  directories h := nomatch h

section Sound

variable (h : Sound requests disk)
include h

/-- A file whose path has no dot is an object. -/
theorem Sound.holds {f : File Content} (hfile : disk.files.lookup q = some f)
    (hplain : ¬ Dotted q) : ∃ r ∈ requests, q = components r.key ∧ Holds disk r := by
  rcases h.files hfile with hobject | ⟨r, -, rfl⟩ | ⟨r, -, name, rfl⟩
  · exact hobject
  · exact absurd (dotted_metadataPath _) hplain
  · exact absurd (dotted_temporaryPath _ name dot_uploadPrefix) hplain

theorem Sound.mkdir (now : Nat) (hr : r ∈ requests) :
    Sound requests (Action.apply now disk (.mkdir (components r.key).dropLast)) where
  files hfile := h.files hfile
  directories {q} hq := by
    rcases List.mem_append.mp hq with hnew | hold
    · exact ⟨r, hr, (mem_parents.mp hnew).2⟩
    · exact h.directories hold

variable (hco : Coherent hash requests)
include hco

theorem Sound.unblocked (hr : r ∈ requests) : disk.blocks (components r.key).dropLast = false := by
  refine Disk.not_blocks fun {q f} hfile hbelow => ?_
  have hprefix := hbelow.trans (List.dropLast_prefix _)
  have hplain : ¬ Dotted q := fun hdot => (hco.keyPath hr).not_dotted (hdot.of_prefix hprefix)
  obtain ⟨s, hs, rfl, -⟩ := h.holds hfile hplain
  -- A proper prefix is shorter, so it is not the path itself.
  have hsame := (hco.compatible s hs r hr).apart hprefix
  have hlength := hbelow.length_le
  have hpos := List.length_pos_iff.mpr (hco.keyPath hr).nonempty
  rw [hsame, List.length_dropLast] at hlength
  omega

theorem Sound.no_directory (hr : r ∈ requests) : components r.key ∉ disk.directories := by
  intro hdir
  obtain ⟨s, hs, hbelow⟩ := h.directories hdir
  have hsame := (hco.compatible r hr s hs).apart (hbelow.trans (List.dropLast_prefix _))
  have hlength := hbelow.length_le
  have hpos := List.length_pos_iff.mpr (hco.keyPath hr).nonempty
  rw [← hsame, List.length_dropLast] at hlength
  omega

theorem Sound.stat (hr : r ∈ requests) (hholds : Holds disk r) :
    ∃ t, stat disk r.key = .ok (r.descriptor t) ∧
      openObject disk r.key = .ok (r.descriptor t, r.content) := by
  rcases hholds with ⟨⟨t, hobject⟩, u, hmetadata⟩
  have hacc := hco.accepted r hr
  have hstat : FilesystemObjectStore.stat disk r.key = .ok (r.descriptor t) := by
    rw [FilesystemObjectStore.stat, if_pos hacc.key, statSync]
    simp [h.unblocked hco hr, hobject, hmetadata, PutRequest.metadata, PutRequest.descriptor,
      hacc.mediaType]
  refine ⟨t, hstat, ?_⟩
  rw [openObject, hstat]
  simp [bind, Except.bind, hobject]

/-! ### Steps -/

theorem Sound.write (now : Nat) (hr : r ∈ requests) (name : List Char) (c : Content) :
    Sound requests
      (Action.apply now disk (.write (temporaryPath (components r.key) uploadPrefix name) c)) where
  files {q f} hfile := by
    simp only [Action.apply, lookup_insert] at hfile
    split at hfile
    · next hq => exact .inr (.inr ⟨r, hr, name, hq⟩)
    · rcases h.files hfile with ⟨s, hs, hq, hholds⟩ | hother
      · refine .inl ⟨s, hs, hq, hholds.frame ?_ ?_⟩
        · simp only [Action.apply, lookup_insert]
          rw [if_neg]
          intro heq
          exact (hco.keyPath hs).not_dotted (heq ▸ dotted_temporaryPath _ name dot_uploadPrefix)
        · simp only [Action.apply, lookup_insert]
          rw [if_neg (metadataPath_ne_temporaryPath (hco.keyPath hs) name rfl)]
      · exact .inr hother
  directories hq := h.directories hq

omit h hco in
/-- Where the files are after a put that creates its object. -/
theorem lookup_creation (upload sidecar : List Char) :
    (run now disk (creation r upload sidecar)).files.lookup q =
      if q = metadataPath (components r.key) then some ⟨.metadata r.metadata, now⟩
      else if q = temporaryPath (components r.key) metadataPrefix sidecar then none
      else if q = components r.key then some ⟨.bytes r.content, now⟩
      else if q = temporaryPath (components r.key) uploadPrefix upload then none
      else disk.files.lookup q := by
  simp only [run, creation, List.foldl_cons, List.foldl_nil, Action.apply, lookup_insert, if_true,
    lookup_erase]
  split_ifs <;> rfl

omit h hco in
theorem directories_creation (upload sidecar : List Char) :
    (run now disk (creation r upload sidecar)).directories =
      parents (components r.key).dropLast ++ disk.directories := by
  simp only [run, creation, List.foldl_cons, List.foldl_nil, Action.apply, lookup_insert, if_true,
    lookup_erase]

omit h in
theorem holds_creation (hr : r ∈ requests) (upload sidecar : List Char) :
    Holds (run now disk (creation r upload sidecar)) r := by
  have hp := hco.keyPath hr
  have hmetadata : components r.key ≠ metadataPath (components r.key) := fun heq =>
    hp.not_dotted (heq ▸ dotted_metadataPath _)
  have htemporary : components r.key ≠ temporaryPath (components r.key) metadataPrefix sidecar :=
    fun heq => hp.not_dotted (heq ▸ dotted_temporaryPath _ sidecar dot_metadataPrefix)
  refine ⟨⟨now, ?_⟩, now, ?_⟩
  · rw [lookup_creation, if_neg hmetadata, if_neg htemporary, if_pos rfl]
  · rw [lookup_creation, if_pos rfl]

theorem Sound.create (hr : r ∈ requests) (hfree : disk.files.lookup (components r.key) = none)
    (upload sidecar : List Char) :
    Sound requests (run now disk (creation r upload sidecar)) where
  files {q f} hfile := by
    rw [lookup_creation] at hfile
    split at hfile
    · next hq => exact .inr (.inl ⟨r, hr, hq⟩)
    split at hfile
    · cases hfile
    split at hfile
    · next hq => exact .inl ⟨r, hr, hq, holds_creation hco hr upload sidecar⟩
    split at hfile
    · cases hfile
    -- The file was there before, and an object among the others kept both its files.
    rcases h.files hfile with ⟨s, hs, rfl, hholds⟩ | hother
    · refine .inl ⟨s, hs, rfl, hholds.frame ?_ ?_⟩
      · rw [lookup_creation]
        simp only [*, if_false]
      · have hs' := hco.keyPath hs
        have hr' := hco.keyPath hr
        rw [lookup_creation, if_neg, if_neg (metadataPath_ne_temporaryPath hs' sidecar rfl),
          if_neg, if_neg (metadataPath_ne_temporaryPath hs' upload rfl)]
        · exact fun heq => hr'.not_dotted (heq ▸ dotted_metadataPath _)
        · intro heq
          have hsame := metadataPath_inj hs'.nonempty hr'.nonempty heq
          rw [hsame, hfree] at hfile
          cases hfile
    · exact .inr hother
  directories {q} hq := by
    rw [directories_creation] at hq
    rcases List.mem_append.mp hq with hnew | hold
    · exact ⟨r, hr, (mem_parents.mp hnew).2⟩
    · exact h.directories hold

omit hco in
theorem Sound.unlink (now : Nat) (hkey : validKey key = true) :
    Sound requests (Action.apply now disk (.unlink (components key))) where
  files {q f} hfile := by
    simp only [Action.apply, lookup_erase] at hfile
    split at hfile
    · cases hfile
    · next hne =>
      rcases h.files hfile with ⟨s, hs, rfl, hholds⟩ | hother
      · refine .inl ⟨s, hs, rfl, hholds.frame ?_ ?_⟩
        · simp only [Action.apply, lookup_erase]
          rw [if_neg hne]
        · simp only [Action.apply, lookup_erase]
          rw [if_neg]
          exact fun heq => (keyPath_components hkey).not_dotted (heq ▸ dotted_metadataPath _)
      · exact .inr hother
  directories hq := h.directories hq

/-- Metadata goes after its object. -/
theorem Sound.unlink_metadata (now : Nat) (hkey : validKey key = true)
    (hgone : disk.files.lookup (components key) = none) :
    Sound requests (Action.apply now disk (.unlink (metadataPath (components key)))) where
  files {q f} hfile := by
    simp only [Action.apply, lookup_erase] at hfile
    split at hfile
    · cases hfile
    · next hne =>
      rcases h.files hfile with ⟨s, hs, rfl, hholds⟩ | hother
      · refine .inl ⟨s, hs, rfl, hholds.frame ?_ ?_⟩
        · simp only [Action.apply, lookup_erase]
          rw [if_neg hne]
        · simp only [Action.apply, lookup_erase]
          rw [if_neg]
          intro heq
          have hsame := metadataPath_inj (hco.keyPath hs).nonempty
            (keyPath_components hkey).nonempty heq
          rw [hsame, hgone] at hfile
          cases hfile
      · exact .inr hother
  directories hq := h.directories hq

/-! ### Operations -/

theorem Sound.not_exists (hr : r ∈ requests)
    (hfree : disk.files.lookup (components r.key) = none) : disk.exists (components r.key) = false := by
  have hdir := h.no_directory hco hr
  simp [Disk.exists, hfree, hdir]

/-- A put of the run's own succeeds, by creating its object or by finding it. -/
theorem Sound.put (hr : r ∈ requests) (upload sidecar : List Char) (now : Nat) :
    (disk.files.lookup (components r.key) = none ∧
      ∃ result, put hash disk r upload sidecar now = .ok (result, creation r upload sidecar)) ∨
    Holds disk r ∧ ∃ result, put hash disk r upload sidecar now = .ok (result, []) := by
  have hacc := hco.accepted r hr
  have hvalid := accepted_iff.mpr hacc
  cases hlookup : disk.files.lookup (components r.key) with
  | none =>
    refine .inl ⟨rfl, ⟨r.descriptor now, true⟩, ?_⟩
    rw [FilesystemObjectStore.put, hvalid]
    simp [bind, Except.bind, putSync, h.not_exists hco hr hlookup, h.unblocked hco hr]
  | some f =>
    obtain ⟨s, hs, hpath, hholds⟩ := h.holds hlookup (hco.keyPath hr).not_dotted
    obtain ⟨hcontent, hmedia⟩ := (hco.compatible r hr s hs).same hpath
    have hdigest : r.sha256 = s.sha256 := by
      rw [hacc.digest, (hco.accepted s hs).digest, hcontent]
    have hown : Holds disk r := by
      rcases hholds with ⟨hobject, hmetadata⟩
      rw [← hpath, ← hcontent] at hobject
      refine ⟨hobject, ?_⟩
      rw [hpath, PutRequest.metadata, hmedia, hdigest, hcontent]
      exact hmetadata
    obtain ⟨t, hstat, -⟩ := h.stat hco hr hown
    rw [FilesystemObjectStore.stat, if_pos hacc.key] at hstat
    rcases hown with ⟨⟨u, hobject⟩, hmetadata⟩
    refine .inr ⟨⟨⟨u, hobject⟩, hmetadata⟩, ⟨r.descriptor t, false⟩, ?_⟩
    rw [FilesystemObjectStore.put, hvalid]
    simp [bind, Except.bind, putSync, Disk.exists, hobject, hstat, verifyDescriptor,
      PutRequest.descriptor, hacc.mediaType, hashPath, ← hacc.digest]

/-- A creation stopped before its first rename leaves at most an upload. -/
theorem Sound.creation_take (hr : r ∈ requests) (upload sidecar : List Char) {count : Nat}
    (hcount : count ≤ 3) : Sound requests (run now disk ((creation r upload sidecar).take count)) := by
  have hmkdir := h.mkdir now hr
  have hempty := hmkdir.write hco now hr upload (.bytes [])
  have hwritten := hempty.write hco now hr upload (.bytes r.content)
  rcases count with _ | _ | _ | _ | count
  · exact h
  · exact hmkdir
  · exact hempty
  · exact hwritten
  · omega

theorem Sound.delete (hkey : validKey key = true) (count : Nat) :
    Sound requests (run now disk ((removal key).take count)) := by
  have hobject := h.unlink now hkey
  rcases count with _ | _ | count
  · exact h
  · exact hobject
  · have hgone : (Action.apply now disk (.unlink (components key))).files.lookup (components key) =
        none := by simp only [Action.apply, lookup_erase, if_true]
    rw [List.take_of_length_le (by simp [removal])]
    exact hobject.unlink_metadata hco now hkey hgone

end Sound

/-! ## Runs -/

/-- The puts of a run that pass their checks. -/
def accepted (hash : Bytes → Sha256) (events : List Event) : List PutRequest :=
  events.filterMap fun event => match event.operation with
    | .delete _ => none
    | .put r _ _ => match validatePut hash r with
      | .ok _ => some r
      | .error _ => none

/-- The event stops a put between the renames of its object and of its metadata. -/
def severs (disk : Disk) (event : Event) : Bool :=
  match event.operation, event.stopped with
  | .put r _ _, some count => !disk.exists (components r.key) && decide (4 ≤ count ∧ count < 7)
  | _, _ => false

/-- No event of the run severs an object from its metadata. -/
def careful (hash : Bytes → Sha256) : Disk → List Event → Bool
  | _, [] => true
  | disk, event :: events => !severs disk event && careful hash (perform hash disk event) events

theorem perform_eq (event : Event) {steps : List (Action Content)}
    (hsteps : event.operation.steps hash disk event.now = .ok steps) :
    ∃ count, perform hash disk event = run event.now disk (steps.take count) ∧
      (event.stopped = some count ∨ event.stopped = none ∧ count = steps.length) := by
  unfold perform
  rw [hsteps]
  cases event.stopped with
  | none => exact ⟨steps.length, by rw [List.take_length], .inr ⟨rfl, rfl⟩⟩
  | some count => exact ⟨count, rfl, .inl rfl⟩

/-- An event that severs nothing leaves whole objects. -/
theorem Sound.perform (h : Sound requests disk) (hco : Coherent hash requests) {event : Event}
    (hin : ∀ r ∈ accepted hash [event], r ∈ requests) (hwhole : severs disk event = false) :
    Sound requests (perform hash disk event) := by
  rcases event with ⟨operation, stopped, now⟩
  cases operation with
  | put r upload sidecar =>
    cases hvalid : validatePut hash r with
    | error e =>
      simp [FilesystemObjectStore.perform, Operation.steps, FilesystemObjectStore.put, hvalid, bind,
        Except.bind, Except.map, h]
    | ok =>
      have hr : r ∈ requests := hin r (by simp [accepted, hvalid])
      rcases h.put hco hr upload sidecar now with ⟨hfree, result, hput⟩ | ⟨-, result, hput⟩
      · have hsteps : (Operation.put r upload sidecar).steps hash disk now =
            .ok (creation r upload sidecar) := by simp [Operation.steps, hput, Except.map]
        obtain ⟨count, heq, hcount⟩ := perform_eq ⟨.put r upload sidecar, stopped, now⟩ hsteps
        rw [heq]
        have hlength : (creation r upload sidecar).length = 7 := rfl
        have hstop : count ≤ 3 ∨ 7 ≤ count := by
          rcases hcount with rfl | ⟨-, rfl⟩
          · simp only [severs, h.not_exists hco hr hfree, Bool.not_false, Bool.true_and,
              decide_eq_false_iff_not] at hwhole
            omega
          · omega
        rcases hstop with hearly | hlate
        · exact h.creation_take hco hr upload sidecar hearly
        · rw [List.take_of_length_le (hlength ▸ hlate)]
          exact h.create hco hr hfree upload sidecar
      · have hsteps : (Operation.put r upload sidecar).steps hash disk now = .ok [] := by
          simp [Operation.steps, hput, Except.map]
        obtain ⟨count, heq, -⟩ := perform_eq ⟨.put r upload sidecar, stopped, now⟩ hsteps
        rw [heq, List.take_nil]
        exact h
  | delete key =>
    cases hsteps : FilesystemObjectStore.delete disk key with
    | error e => simp [FilesystemObjectStore.perform, Operation.steps, hsteps, h]
    | ok steps =>
      obtain ⟨count, heq, -⟩ := perform_eq ⟨.delete key, stopped, now⟩ hsteps
      rw [heq]
      unfold FilesystemObjectStore.delete at hsteps
      split_ifs at hsteps with hkey
      cases hsteps
      exact h.delete hco (by simpa using hkey) count

theorem accepted_cons (event : Event) (events : List Event) :
    accepted hash (event :: events) = accepted hash [event] ++ accepted hash events := by
  rw [accepted, ← List.singleton_append, List.filterMap_append]
  rfl

theorem Sound.history {events : List Event} (h : Sound requests disk) (hco : Coherent hash requests)
    (hin : ∀ r ∈ accepted hash events, r ∈ requests) (hcareful : careful hash disk events = true) :
    Sound requests (events.foldl (FilesystemObjectStore.perform hash) disk) := by
  induction events generalizing disk with
  | nil => exact h
  | cons event events ih =>
    simp only [careful, Bool.and_eq_true, Bool.not_eq_true'] at hcareful
    rw [accepted_cons] at hin
    have hfirst := h.perform hco (fun r hr => hin r (List.mem_append_left _ hr)) hcareful.1
    exact ih hfirst (fun r hr => hin r (List.mem_append_right _ hr)) hcareful.2

theorem accepted_mem {events : List Event} (hr : r ∈ accepted hash events) : Accepted hash r := by
  obtain ⟨event, -, hevent⟩ := List.mem_filterMap.mp hr
  split at hevent
  · cases hevent
  · split at hevent
    · next hvalid =>
      cases hevent
      exact accepted_iff.mp hvalid
    · cases hevent

/-! ## Listings -/

theorem isObjectName_metadata (name : List Char) : isObjectName (name ++ metadataSuffix) = false := by
  have hsuffix : metadataSuffix.isSuffixOf (name ++ metadataSuffix) = true :=
    List.isSuffixOf_iff_suffix.mpr (List.suffix_append _ _)
  simp [isObjectName, hsuffix]

theorem isObjectName_upload (name : List Char) : isObjectName (uploadPrefix ++ name) = false := by
  have hprefix : uploadPrefix.isPrefixOf (uploadPrefix ++ name) = true :=
    List.isPrefixOf_iff_prefix.mpr (List.prefix_append _ _)
  simp [isObjectName, hprefix]

theorem Sound.listed (h : Sound requests disk) (hco : Coherent hash requests) {start : String}
    {limit : Nat} {after : Option String} {keys : List String}
    (hkeys : listKeys disk start limit after = .ok keys) (hkey : key ∈ keys) :
    validKey key = true := by
  unfold listKeys at hkeys
  split_ifs at hkeys
  cases hkeys
  have hmem := (List.mem_insertionSort _).mp (List.mem_of_mem_take hkey)
  obtain ⟨q, hq, rfl⟩ := List.mem_map.mp (List.mem_filter.mp hmem).1
  obtain ⟨hfile, hname⟩ := List.mem_filter.mp hq
  obtain ⟨f, hf⟩ := Option.isSome_iff_exists.mp (AList.lookup_isSome.mpr hfile)
  rcases h.files hf with ⟨r, hr, rfl, -⟩ | ⟨r, -, rfl⟩ | ⟨r, -, name, rfl⟩
  · exact validKey_path (hco.accepted r hr).key
  · rw [metadataPath, getLast?_withName, Option.getD_some, isObjectName_metadata] at hname
    cases hname
  · rw [temporaryPath, getLast?_withName, Option.getD_some, isObjectName_upload] at hname
    cases hname

/-- No key-validation error: a valid key fails otherwise, if at all. -/
theorem statSync_ne_value (disk : Disk) (key message : String) :
    statSync disk key ≠ .error (.value message) := by
  unfold statSync
  intro h
  dsimp only at h
  split at h
  · cases h
  split at h
  · cases h
  · cases h
  · split at h
    · split at h <;> cases h
    · cases h
    · split at h
      · cases h
      · split at h <;> cases h

theorem stat_valid (hkey : validKey key = true) (message : String) :
    stat disk key ≠ .error (.value message) := by
  rw [stat, if_pos hkey]
  exact statSync_ne_value disk key message

theorem delete_valid (hkey : validKey key = true) (message : String) :
    delete disk key ≠ .error (.value message) := by
  unfold FilesystemObjectStore.delete
  intro h
  rw [hkey, if_neg Bool.noConfusion] at h
  split_ifs at h <;> cases h

/-! ## Crashes and restarts -/

/-- The request can be put again, and the object is then there. -/
def Restorable (hash : Bytes → Sha256) (disk : Disk) (r : PutRequest) : Prop :=
  ∀ upload sidecar now, ∃ result steps, put hash disk r upload sidecar now = .ok (result, steps) ∧
    ∃ descriptor, descriptor.sha256 = r.sha256 ∧ descriptor.mediaType = r.mediaType ∧
      stat (run now disk steps) r.key = .ok descriptor ∧
      openObject (run now disk steps) r.key = .ok (descriptor, r.content)

/-- Every listed key can be asked about and deleted. -/
def Listable (disk : Disk) : Prop :=
  ∀ {start limit after keys}, listKeys disk start limit after = .ok keys → ∀ key ∈ keys,
    ∀ message, stat disk key ≠ .error (.value message) ∧ delete disk key ≠ .error (.value message)

theorem Sound.restorable (h : Sound requests disk) (hco : Coherent hash requests)
    (hr : r ∈ requests) : Restorable hash disk r := by
  intro upload sidecar now
  have hafter : ∃ result steps,
      FilesystemObjectStore.put hash disk r upload sidecar now = .ok (result, steps) ∧
      Sound requests (run now disk steps) ∧ Holds (run now disk steps) r := by
    rcases h.put hco hr upload sidecar now with ⟨hfree, result, hput⟩ | ⟨hholds, result, hput⟩
    · exact ⟨result, _, hput, h.create hco hr hfree upload sidecar,
        holds_creation hco hr upload sidecar⟩
    · exact ⟨result, [], hput, h, hholds⟩
  obtain ⟨result, steps, hput, hsound, hholds⟩ := hafter
  obtain ⟨t, hstat, hopen⟩ := hsound.stat hco hr hholds
  exact ⟨result, steps, hput, r.descriptor t, rfl, rfl, hstat, hopen⟩

theorem Sound.listable (h : Sound requests disk) (hco : Coherent hash requests) : Listable disk := by
  intro start limit after keys hkeys key hkey message
  have hvalid := h.listed hco hkeys hkey
  exact ⟨stat_valid hvalid message, delete_valid hvalid message⟩

/-- After any run of puts and deletes with crashes in which no put was stopped
between its two renames, every accepted put can be repeated and every listed key
processed. -/
theorem restart_recovers (hash : Bytes → Sha256) (events : List Event)
    (hcareful : careful hash {} events = true)
    (hbeside : ∀ r ∈ accepted hash events, ∀ s ∈ accepted hash events, Compatible r s) :
    (∀ r ∈ accepted hash events, Restorable hash (history hash events) r) ∧
      Listable (history hash events) := by
  have hco : Coherent hash (accepted hash events) := ⟨fun r hr => accepted_mem hr, hbeside⟩
  have hsound := sound_empty.history hco (fun r hr => hr) hcareful
  exact ⟨fun r hr => hsound.restorable hco hr, hsound.listable hco⟩

/-! ### The put of one object -/

def sampleHash (content : Bytes) : Sha256 := BitVec.ofNat 256 content.length

def samplePut : PutRequest := ⟨"a/b", [7], 1, "text/plain"⟩

def sampleEvent (stopped : Option Nat) : Event := ⟨.put samplePut ['x'] ['y'], stopped, 0⟩

/-- A put stopped before its renames and repeated. -/
theorem restart_recovers_sample :
    (∀ r ∈ accepted sampleHash [sampleEvent (some 3), sampleEvent none],
      Restorable sampleHash (history sampleHash [sampleEvent (some 3), sampleEvent none]) r) ∧
    Listable (history sampleHash [sampleEvent (some 3), sampleEvent none]) := by
  have haccepted : accepted sampleHash [sampleEvent (some 3), sampleEvent none] =
      [samplePut, samplePut] := by decide +kernel
  refine restart_recovers sampleHash _ (by decide +kernel) ?_
  rw [haccepted]
  intro r hr s hs
  simp only [List.mem_cons, List.not_mem_nil, or_false, or_self] at hr hs
  subst hr hs
  exact ⟨fun _ => ⟨rfl, rfl⟩, fun _ => rfl⟩

/-- Stopped after the first rename, the put can never be repeated; stopped one
step later, the store lists a key it refuses itself. -/
theorem severed_put_stays :
    samplePut ∈ accepted sampleHash [sampleEvent (some 4)] ∧
      ¬ Restorable sampleHash (history sampleHash [sampleEvent (some 4)]) samplePut ∧
      ¬ Listable (history sampleHash [sampleEvent (some 5)]) := by
  refine ⟨by decide +kernel, fun h => ?_, fun h => ?_⟩
  · obtain ⟨result, steps, hput, -⟩ := h ['x'] ['y'] 0
    have hlost : put sampleHash (history sampleHash [sampleEvent (some 4)]) samplePut ['x'] ['y'] 0 =
        .error (.objectNotFound "object not found") := by decide +kernel
    rw [hlost] at hput
    cases hput
  · have hkeys : listKeys (history sampleHash [sampleEvent (some 5)]) "a" 10 none =
        .ok ["a/.metadata-y", "a/b"] := by decide +kernel
    have hrefused : stat (history sampleHash [sampleEvent (some 5)]) "a/.metadata-y" =
        .error (.value "invalid object key") := by decide +kernel
    exact (h hkeys _ List.mem_cons_self "invalid object key").1 hrefused

end FilesystemObjectStore

end CorpusKit
