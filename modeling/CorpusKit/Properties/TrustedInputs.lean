import CorpusKit.Library.JsonEquality
import CorpusKit.Library.Solo
import CorpusKit.Properties.CorpusFiles
import CorpusKit.Workflows.TrustedInputs

/-! # Trusted inputs are claimed once and by their own run

The text of a marker determines the envelope, and only the rename takes a marker
away while the parent has not left, so that at most one child answers with the
directory. What a child reads there has the digests of its envelope, and the
parent took these from the spec of the run. -/

namespace CorpusKit.TrustedInputs

open Json (Value)
open Program (Prog)
open Transaction Interleaving

/-! ## Canonical forms -/

theorem loaded_obj {fields : List (List Char × Value)} (keys : List String)
    (hkeys : fields.map Prod.fst = keys.map String.toList) (hsorted : keys.Pairwise (· < ·))
    (hvalues : Json.LoadedFields fields) : (Value.obj fields).Loaded := by
  refine ⟨List.pairwise_map.mp ?_, hvalues⟩
  rw [hkeys]
  exact List.pairwise_map.mpr (hsorted.imp String.lt_iff.mp)

theorem loaded_str (text : Text) : (Value.str text).Loaded := trivial

theorem loadedItems_map {α : Type} {dump : α → Value} (h : ∀ a, (dump a).Loaded) (xs : List α) :
    Json.LoadedItems (xs.map dump) := by
  induction xs with
  | nil => trivial
  | cons x xs ih => exact ⟨h x, ih⟩

theorem canonical_injective {v w : Value} (hv : v.Loaded) (hw : w.Loaded)
    (h : canonical v = canonical w) : v = w :=
  hv.dumps_injective hw (encodeUtf8_injective h)

theorem loaded_orNull {α : Type} {dump : α → Value} (h : ∀ a, (dump a).Loaded) (x : Option α) :
    (orNull dump x).Loaded := by
  cases x with
  | none => trivial
  | some a => exact h a

theorem orNull_injective {α : Type} {dump : α → Value} (hdump : Function.Injective dump)
    (hnull : ∀ a, dump a ≠ .null) : Function.Injective (orNull dump) := by
  intro x y h
  cases x with
  | none =>
    cases y with
    | none => rfl
    | some b => exact absurd h.symm (hnull b)
  | some a =>
    cases y with
    | none => exact absurd h (hnull a)
    | some b => exact congrArg some (hdump h)

theorem TrustedPromptInput.loaded (a : TrustedPromptInput) : a.modelDump.Loaded :=
  loaded_obj ["artifact_id", "content_sha256", "prompt_count"] rfl (by decide)
    ⟨trivial, trivial, trivial, trivial⟩

theorem TrustedPromptInput.modelDump_injective :
    Function.Injective TrustedPromptInput.modelDump := by
  intro a b h
  simp only [modelDump, Value.obj.injEq, List.cons.injEq, Prod.mk.injEq, true_and, and_true,
    Value.str.injEq, Value.int.injEq, Nat.cast_inj] at h
  obtain ⟨hid, hsha, hcount⟩ := h
  rw [TrustedPromptInput.mk.injEq]
  exact ⟨uuidText_injective hid, hsha, by exact_mod_cast hcount⟩

theorem TrustedPeftAdapterInput.loaded (a : TrustedPeftAdapterInput) : a.modelDump.Loaded :=
  loaded_obj
    ["artifact_id", "artifact_sha256", "checkpoint_sha256", "materialized_manifest_sha256"] rfl
    (by decide) ⟨trivial, trivial, trivial, trivial, trivial⟩

theorem TrustedPeftAdapterInput.modelDump_injective :
    Function.Injective TrustedPeftAdapterInput.modelDump := by
  intro a b h
  simp only [modelDump, Value.obj.injEq, List.cons.injEq, Prod.mk.injEq, true_and, and_true,
    Value.str.injEq] at h
  rw [TrustedPeftAdapterInput.mk.injEq]
  exact ⟨uuidText_injective h.1, h.2⟩

theorem RunKind.value_injective {k k' : RunKind} (h : k.value.toList = k'.value.toList) : k = k' := by
  have hvalue := String.toList_inj.mp h
  revert hvalue
  cases k <;> cases k' <;> decide

theorem TrustedRunInputs.loaded (inputs : TrustedRunInputs) : inputs.modelDump.Loaded :=
  loaded_obj
    ["peft_adapter", "prompt", "run_binding_sha256", "run_kind", "schema_id", "spec_sha256",
      "token"] rfl (by decide)
    ⟨loaded_orNull TrustedPeftAdapterInput.loaded _, loaded_orNull TrustedPromptInput.loaded _,
      trivial, trivial, trivial, trivial, trivial, trivial⟩

/-- The marker tells the envelope. -/
theorem TrustedRunInputs.canonicalBytes_injective :
    Function.Injective TrustedRunInputs.canonicalBytes := by
  intro a b h
  have hdump := canonical_injective a.loaded b.loaded h
  simp only [modelDump, Value.obj.injEq, List.cons.injEq, Prod.mk.injEq, true_and, and_true,
    Value.str.injEq] at hdump
  obtain ⟨hadapter, hprompt, hbinding, hkind, hspec, htoken⟩ := hdump
  rw [TrustedRunInputs.mk.injEq]
  exact ⟨htoken, hbinding, hspec, RunKind.value_injective hkind,
    orNull_injective TrustedPromptInput.modelDump_injective (fun _ => Value.noConfusion) hprompt,
    orNull_injective TrustedPeftAdapterInput.modelDump_injective (fun _ => Value.noConfusion)
      hadapter⟩

theorem Compatibility.loaded (c : Compatibility) : c.modelDump.Loaded :=
  loaded_obj
    ["base_model_id", "base_model_revision", "base_model_snapshot_sha256", "corpusgen_version",
      "peft_adapter", "peft_version", "schema_id", "tokenizer_id", "tokenizer_revision",
      "tokenizer_snapshot_sha256", "torch_version", "transformers_version"] rfl (by decide)
    ⟨trivial, trivial, trivial, trivial, trivial, loaded_orNull loaded_str _, trivial,
      trivial, trivial, trivial, trivial, trivial, trivial⟩

theorem Compatibility.modelDump_injective : Function.Injective Compatibility.modelDump := by
  intro a b h
  simp only [modelDump, Value.obj.injEq, List.cons.injEq, Prod.mk.injEq, true_and, and_true,
    Value.str.injEq, Value.bool.injEq] at h
  obtain ⟨h1, h2, h3, h4, h5, h6, h7, h8, h9, h10, h11⟩ := h
  have hversion := orNull_injective (fun _ _ => Value.str.inj) (fun _ => Value.noConfusion) h6
  rw [Compatibility.mk.injEq]
  exact ⟨h1, h2, h3, h7, h8, h9, h4, h10, h11, hversion, h5⟩

theorem MaterializedCheckpointFile.modelDump_injective :
    Function.Injective MaterializedCheckpointFile.modelDump := by
  intro a b h
  simp only [modelDump, Value.obj.injEq, List.cons.injEq, Prod.mk.injEq, true_and, and_true,
    Value.str.injEq, Value.int.injEq] at h
  rw [MaterializedCheckpointFile.mk.injEq]
  exact ⟨h.1, by exact_mod_cast h.2.2, h.2.1⟩

theorem MaterializedCheckpointFile.loaded (file : MaterializedCheckpointFile) :
    file.modelDump.Loaded :=
  loaded_obj ["path", "sha256", "size_bytes"] rfl (by decide) ⟨trivial, trivial, trivial, trivial⟩

theorem MaterializedPeftManifest.canonicalBytes_injective :
    Function.Injective MaterializedPeftManifest.canonicalBytes := by
  have hloaded : ∀ manifest : MaterializedPeftManifest, (Value.obj
      [("checkpoint_sha256".toList, .str manifest.checkpointSha256),
       ("compatibility".toList, manifest.compatibility.modelDump),
       ("files".toList, .arr (manifest.files.map MaterializedCheckpointFile.modelDump)),
       ("schema_id".toList, .str "corpuskit.materialized-peft-adapter.v1".toList)]).Loaded := by
    intro manifest
    exact loaded_obj ["checkpoint_sha256", "compatibility", "files", "schema_id"] rfl (by decide)
      ⟨trivial, manifest.compatibility.loaded,
        loadedItems_map MaterializedCheckpointFile.loaded _, trivial, trivial⟩
  intro a b h
  have hdump := canonical_injective (hloaded a) (hloaded b) h
  simp only [Value.obj.injEq, List.cons.injEq, Prod.mk.injEq, true_and, and_true,
    Value.arr.injEq, Value.str.injEq] at hdump
  obtain ⟨hsha, hcompatibility, hfiles⟩ := hdump
  rw [MaterializedPeftManifest.mk.injEq]
  exact ⟨hsha, Compatibility.modelDump_injective hcompatibility,
    List.map_injective_iff.mpr MaterializedCheckpointFile.modelDump_injective hfiles⟩

/-! ## The markers -/

def World.ready (w : World) (token : Token) : Option Bytes :=
  (w.directories token).bind Directory.ready

/-- No child can claim the directory any more. -/
def Taken (token : Token) (w : World) : Prop := w.ready token = none

section Runs

variable {p : Platform} {given : Inputs p}

/-- Every marker is the one that the parent wrote for the token. -/
def Written (given : Inputs p) (w : World) : Prop :=
  ∀ token raw, w.ready token = some raw →
    ∃ m ∈ given.all, m.inputs.token = token ∧ raw = m.inputs.canonicalBytes

/-- No marker appears. -/
def World.Later (w w' : World) : Prop :=
  ∀ token raw, w'.ready token = some raw → w.ready token = some raw

theorem World.Later.refl (w : World) : w.Later w := fun _ _ h => h

theorem World.Later.trans {u v w : World} (h : u.Later v) (h' : v.Later w) : u.Later w :=
  fun token raw hraw => h token raw (h' token raw hraw)

theorem World.Later.written {w w' : World} (h : w.Later w') (hw : Written given w) :
    Written given w' :=
  fun token raw hraw => hw token raw (h token raw hraw)

theorem World.Later.taken {w w' : World} {token : Token} (h : w.Later w') (ht : Taken token w) :
    Taken token w' := by
  cases hready : w'.ready token with
  | none => exact hready
  | some raw => exact absurd (h token raw hready) (by rw [show w.ready token = none from ht]; simp)

theorem later_setDirectory {w : World} {token : Token} {directory : Option Directory}
    (h : ∀ raw, directory.bind Directory.ready = some raw → w.ready token = some raw) :
    w.Later (w.setDirectory token directory) := by
  intro t raw hraw
  unfold World.ready World.setDirectory at hraw
  dsimp only at hraw
  split at hraw
  · next ht => rw [ht]; exact h raw hraw
  · exact hraw

theorem later_change {w : World} {token : Token} {f : Directory → Option Directory}
    (h : ∀ d raw, (f d).bind Directory.ready = some raw → d.ready = some raw) :
    w.Later (w.change token f) := by
  unfold World.change
  split
  · next directory hd =>
    refine later_setDirectory fun raw hraw => ?_
    rw [World.ready, hd]
    exact h directory raw hraw
  · exact World.Later.refl w

theorem later_removal {w : World} {token : Token} {f : Directory → Option Directory}
    (h : ∀ d raw, (f d).bind Directory.ready = some raw → d.ready = some raw) :
    w.Later (if w.removing token then w.change token f else w) := by
  split
  · exact later_change h
  · exact World.Later.refl w

theorem Tick.later (tick : Tick) (w : World) : w.Later (tick.apply w) := by
  cases tick with
  | leave token => exact World.Later.refl w
  | unlinkReady token =>
    refine later_removal fun d raw h => ?_
    simp at h
  | unlinkClaimed token => exact later_removal fun d raw h => h
  | unlinkEntry token folder name => exact later_removal fun d raw h => h
  | removeDirectory token =>
    refine later_removal fun d raw h => ?_
    simp at h
  | alter token folder name entry => exact later_change fun d raw h => h

/-! ## One operation -/

theorem present_returns {α : Type} {look : World → Option α} {w w' : World} {a : α}
    (h : Returns (present look) w a w') : look w = some a ∧ w = w' := by
  obtain ⟨v, u, hget, hfound⟩ := h.bind
  obtain ⟨rfl, rfl⟩ := hget.get
  exact hfound.found

theorem present_raises {α : Type} {look : World → Option α} {w : World} {e : Raised}
    (h : Raises (present look) w e) : e = .os := by
  obtain hget | ⟨v, u, hget, hfound⟩ := h.bind
  · cases hget
  · exact hfound.found.2.symm

/-- What the rename does, where the marker is still there. -/
theorem replaceReady_returns {token : Token} {w w' : World} {u : Unit}
    (h : Returns (Op.exec (.replaceReady token)) w u w') :
    w.Later w' ∧ ¬ Taken token w ∧ Taken token w' ∧ w'.removing = w.removing := by
  obtain ⟨v, v', hget, h⟩ := h.bind
  obtain ⟨rfl, rfl⟩ := hget.get
  obtain ⟨directory, v, hfound, h⟩ := h.bind
  obtain ⟨hd, rfl⟩ := hfound.found
  obtain ⟨raw, v, hfound, h⟩ := h.bind
  obtain ⟨hraw, rfl⟩ := hfound.found
  obtain rfl := h.set
  have hready : w.ready token = some raw := by rw [World.ready, hd, Option.bind_some, hraw]
  refine ⟨later_setDirectory fun raw h => by simp at h, ?_, ?_, rfl⟩
  · rw [Taken, hready]
    simp
  · simp [Taken, World.ready, World.setDirectory]

theorem replaceReady_raises {token : Token} {w : World} {e : Raised}
    (h : Raises (Op.exec (.replaceReady token)) w e) : e = .os := by
  obtain hget | ⟨v, v', hget, h⟩ := h.bind
  · cases hget
  obtain hfound | ⟨directory, v, hfound, h⟩ := h.bind
  · exact hfound.found.2.symm
  obtain hfound | ⟨raw, v, hfound, h⟩ := h.bind
  · exact hfound.found.2.symm
  · cases h

/-- An operation other than the rename changes nothing. -/
theorem exec_returns {β : Type} {o : Op β} {w w' : World} {b : β} (h : Returns o.exec w b w') :
    w.Later w' ∧ w'.removing = w.removing := by
  cases o with
  | replaceReady token =>
    obtain ⟨hlater, -, -, hremoving⟩ := replaceReady_returns h
    exact ⟨hlater, hremoving⟩
  | resolveDirectory => obtain ⟨-, rfl⟩ := present_returns h; exact ⟨World.Later.refl w, rfl⟩
  | readReady => obtain ⟨-, rfl⟩ := present_returns h; exact ⟨World.Later.refl w, rfl⟩
  | resolve => obtain ⟨-, rfl⟩ := present_returns h; exact ⟨World.Later.refl w, rfl⟩
  | isFile => obtain ⟨-, rfl⟩ := present_returns h; exact ⟨World.Later.refl w, rfl⟩
  | isFolder => obtain ⟨-, rfl⟩ := present_returns h; exact ⟨World.Later.refl w, rfl⟩
  | size => obtain ⟨-, rfl⟩ := present_returns h; exact ⟨World.Later.refl w, rfl⟩
  | read => obtain ⟨-, rfl⟩ := present_returns h; exact ⟨World.Later.refl w, rfl⟩

theorem exec_raises {β : Type} {o : Op β} {w : World} {e : Raised} (h : Raises o.exec w e) :
    e = .os := by
  cases o with
  | replaceReady => exact replaceReady_raises h
  | resolveDirectory => exact present_raises h
  | readReady => exact present_raises h
  | resolve => exact present_raises h
  | isFile => exact present_raises h
  | isFolder => exact present_raises h
  | size => exact present_raises h
  | read => exact present_raises h

/-! ## Terms of a run -/

/-- Anybody may do anything that a program or a tick does. -/
def terms (given : Inputs p) : Contract (children p) where
  inv := Written given
  evolve := World.Later
  may _ _ _ := True
  must _ _ _ _ := True
  refl := World.Later.refl
  trans := World.Later.trans
  op hi _ _ hret := ⟨(exec_returns hret).1.written hi, (exec_returns hret).1⟩
  tick hi := ⟨(Tick.later _ _).written hi, Tick.later _ _⟩

/-- Nothing that was done changed anything. -/
def Quiet (past : List (Event (children p))) : Prop := ∀ e ∈ past, e.before = e.after

/-- What is raised inside a `try` before it is refused. -/
def Fails (code : String) (e : Raised) (past : List (Event (children p))) (_ : World) : Prop :=
  (e = .os ∨ e = .value ∨ e = .run code false) ∧ Quiet past

def Refused (code : String) (e : Raised) (past : List (Event (children p))) (_ : World) : Prop :=
  e = .run code false ∧ Quiet past

theorem Quiet.cons {past : List (Event (children p))} (h : Quiet past) {β : Type} (o : Op β)
    (w : World) : Quiet ((⟨o, w, w⟩ : Event (children p)) :: past) := by
  intro e he
  obtain rfl | hold := List.mem_cons.mp he
  · rfl
  · exact h e hold

theorem refused_fails {α : Type} {code : String} {e : Raised}
    (h : e = .os ∨ e = .value ∨ e = .run code false) :
    (refused code e : Prog Op Raised α) = .raise (.run code false) := by
  obtain rfl | rfl | rfl := h <;> rfl

variable {α : Type} {code : String} {past : List (Event (children p))} {w : World}
  {Q : α → List (Event (children p)) → World → Prop}

theorem sat_refused {q : Prog Op Raised α} (hw : Written given w)
    (h : Sat (terms given) Q (Fails code) q past w) :
    Sat (terms given) Q (Refused code) (q.handle (refused code)) past w := by
  refine Sat.handle hw (h.mono (fun _ _ _ hq => hq) ?_)
  intro e past w he
  rw [refused_fails he.1]
  exact Sat.raise fun v _ _ => ⟨rfl, he.2⟩

/-- An operation that only looks. -/
theorem sat_look {β : Type} {o : Op β} {next : β → Prog Op Raised α}
    (hpast : Quiet past) (hlook : ∀ {v b v'}, Returns o.exec v b v' → v = v')
    (hok : ∀ v b, Written given v → Returns o.exec v b v →
      Sat (terms given) Q (Fails code) (next b) (⟨o, v, v⟩ :: past) v) :
    Sat (terms given) Q (Fails code) (Prog.perform o >>= next) past w := by
  refine Sat.op (fun _ _ _ _ => trivial) ?_ ?_
  · intro v b v' _ hv _ hret _ _
    obtain rfl := hlook hret
    exact hok v b hv hret
  · intro v e _ _ _ hraise
    exact Sat.raise fun u _ _ => ⟨.inl (exec_raises hraise), hpast.cons o v⟩

theorem sat_check {P : Prop} [Decidable P] {e : Raised} {next : Unit → Prog Op Raised α}
    (hpast : Quiet past) (he : e = .value ∨ e = .run code false)
    (h : P → Sat (terms given) Q (Fails code) (next ()) past w) :
    Sat (terms given) Q (Fails code) (Prog.require P e >>= next) past w :=
  Sat.require h fun _ _ _ => ⟨.inr he, hpast⟩

theorem sat_parse {β : Type} {x : Option β} {next : β → Prog Op Raised α}
    (hpast : Quiet past) (h : ∀ b, x = some b → Sat (terms given) Q (Fails code) (next b) past w) :
    Sat (terms given) Q (Fails code) (Prog.found x .value >>= next) past w :=
  Sat.found h fun _ _ _ => ⟨.inr (.inl rfl), hpast⟩

/-! ## The calls -/

/-- What a claim that answers has found and done. -/
def Claims (given : Inputs p) (inputs : TrustedRunInputs) (expectedKind : RunKind) (token : Token)
    (past : List (Event (children p))) (_ : World) : Prop :=
  token = inputs.token ∧ inputs.runKind = expectedKind ∧ (∃ m ∈ given.all, m.inputs = inputs) ∧
    ∃ e ∈ past, e.Flips (Taken inputs.token)

theorem sat_claim {inputs : TrustedRunInputs} {expectedKind : RunKind} (hw : Written given w) :
    Sat (terms given) (Claims given inputs expectedKind) (Refused "trusted_input_claim")
      (claimTrustedInput inputs expectedKind) [] w := by
  have hquiet : Quiet ([] : List (Event (children p))) := fun e he => (List.not_mem_nil he).elim
  refine Sat.require ?_ fun _ _ _ => ⟨rfl, hquiet⟩
  rintro ⟨hkind, -⟩
  refine sat_refused hw ?_
  refine sat_look hquiet (fun h => (present_returns h).2) fun v _ _ _ => ?_
  refine sat_look (hquiet.cons _ _) (fun h => (present_returns h).2) fun v raw hv hret => ?_
  refine sat_check ((hquiet.cons _ _).cons _ _) (.inr rfl) ?_
  rintro rfl
  -- the marker is some run's, and tells its envelope
  obtain ⟨m, hm, htoken, hbytes⟩ := hv _ _ (present_returns hret).1
  have hinputs : m.inputs = inputs := TrustedRunInputs.canonicalBytes_injective hbytes.symm
  refine Sat.op (fun _ _ _ _ => trivial) ?_ ?_
  · intro u b u' _ _ _ hret' _ _
    have hrename : Returns (Op.exec (.replaceReady inputs.token)) u b u' := hret'
    obtain ⟨-, hbefore, hafter, -⟩ := replaceReady_returns hrename
    exact Sat.ret fun _ _ _ =>
      ⟨rfl, hkind, ⟨m, hm, hinputs⟩, _, List.mem_cons_self, hbefore, hafter⟩
  · intro u e _ _ _ hraise'
    have hraise : Raises (Op.exec (.replaceReady inputs.token)) u e := hraise'
    exact Sat.raise fun _ _ _ =>
      ⟨.inl (exec_raises hraise), ((hquiet.cons _ _).cons _ _).cons _ _⟩

def ReadsPrompts (p : Platform) (trusted : TrustedPromptInput) (prompts : List Text)
    (past : List (Event (children p))) (_ : World) : Prop :=
  p.sha256 (promptBytes prompts) = trusted.contentSha256 ∧
    prompts.length = trusted.promptCount ∧ Quiet past

theorem sat_readPrompts {directory : Token} {trusted : TrustedPromptInput}
    (hw : Written given w) :
    Sat (terms given) (ReadsPrompts p trusted) (Refused "trusted_prompt_integrity")
      (readMaterializedPrompts p directory trusted) [] w := by
  have hquiet : Quiet ([] : List (Event (children p))) := fun e he => (List.not_mem_nil he).elim
  refine sat_refused hw ?_
  refine sat_look hquiet (fun h => (present_returns h).2) fun v inside _ _ => ?_
  have hquiet := hquiet.cons (.resolve directory .root promptFile) v
  refine sat_look hquiet (fun h => (present_returns h).2) fun v _ _ _ => ?_
  have hquiet := hquiet.cons (.resolveDirectory directory) v
  refine sat_check hquiet (.inl rfl) fun _ => ?_
  refine sat_look hquiet (fun h => (present_returns h).2) fun v size _ _ => ?_
  have hquiet := hquiet.cons (.size directory .root promptFile) v
  refine sat_check hquiet (.inl rfl) fun _ => ?_
  refine sat_look hquiet (fun h => (present_returns h).2) fun v content _ _ => ?_
  have hquiet := hquiet.cons (.read directory .root promptFile) v
  refine sat_check hquiet (.inl rfl) fun hdigest => ?_
  refine sat_parse hquiet fun prompts _ => ?_
  refine sat_check hquiet (.inl rfl) ?_
  rintro ⟨rfl, hcount⟩
  exact Sat.ret fun _ _ _ => ⟨hdigest, hcount, hquiet⟩

/-- Some read of a file of the adapter has delivered these bytes. -/
def HasRead (past : List (Event (children p))) (directory : Token) (name : Text)
    (content : Bytes) : Prop :=
  ∃ v : World, (⟨Op.read directory .adapter name, v, v⟩ : Event (children p)) ∈ past ∧
    (v.entry directory .adapter name).bind Entry.content = some content

theorem HasRead.later {past past' : List (Event (children p))} {directory : Token} {name : Text}
    {content : Bytes} (h : HasRead past directory name content) (hpast : past <:+ past') :
    HasRead past' directory name content := by
  obtain ⟨v, hmem, hcontent⟩ := h
  exact ⟨v, hpast.subset hmem, hcontent⟩

def Checked (p : Platform) (past : List (Event (children p))) (directory : Token)
    (item : MaterializedCheckpointFile) : Prop :=
  ∃ content, HasRead past directory item.path content ∧ p.sha256 content = item.sha256

/-- One pass of the loop adds one checked file. -/
theorem sat_checkFiles {directory : Token} {items : List MaterializedCheckpointFile}
    (hpast : Quiet past) :
    Sat (terms given)
      (fun _ past' _ => (∀ item ∈ items, Checked p past' directory item) ∧ Quiet past')
      (Fails code) (checkFiles p directory items) past w := by
  induction items generalizing past w with
  | nil => exact Sat.ret fun _ _ _ => ⟨fun item hitem => (List.not_mem_nil hitem).elim, hpast⟩
  | cons item items ih =>
    refine sat_look hpast (fun h => (present_returns h).2) fun v inside _ _ => ?_
    have hpast := hpast.cons (.resolve directory .adapter item.path) v
    refine sat_check hpast (.inl rfl) fun _ => ?_
    refine sat_look hpast (fun h => (present_returns h).2) fun v isFile _ _ => ?_
    have hpast := hpast.cons (.isFile directory .adapter item.path) v
    refine sat_check hpast (.inl rfl) fun _ => ?_
    refine sat_look hpast (fun h => (present_returns h).2) fun v size _ _ => ?_
    have hpast := hpast.cons (.size directory .adapter item.path) v
    refine sat_check hpast (.inl rfl) fun _ => ?_
    refine sat_look hpast (fun h => (present_returns h).2) fun v content _ hret => ?_
    have hpast := hpast.cons (.read directory .adapter item.path) v
    refine sat_check hpast (.inl rfl) fun hdigest => ?_
    refine (ih hpast).grown.mono ?_ fun e past' _ he => he.1
    rintro _ past' _ ⟨⟨hitems, hquiet⟩, hsuffix⟩
    have hitem : Checked p past' directory item :=
      ⟨content, ⟨v, hsuffix.subset List.mem_cons_self, (present_returns hret).1⟩, hdigest⟩
    exact ⟨List.forall_mem_cons.mpr ⟨hitem, hitems⟩, hquiet⟩

def ReadsAdapter (p : Platform) (directory : Token) (trusted : TrustedPeftAdapterInput)
    (manifest : MaterializedPeftManifest) (past : List (Event (children p))) (_ : World) : Prop :=
  p.sha256 manifest.canonicalBytes = trusted.materializedManifestSha256 ∧
    manifest.checkpointSha256 = trusted.checkpointSha256 ∧
    (∀ item ∈ manifest.files, Checked p past directory item) ∧ Quiet past

theorem sat_readAdapter {directory : Token} {trusted : TrustedPeftAdapterInput}
    (hw : Written given w) :
    Sat (terms given) (ReadsAdapter p directory trusted) (Refused "trusted_adapter_integrity")
      (readMaterializedPeftManifest p directory trusted) [] w := by
  have hquiet : Quiet ([] : List (Event (children p))) := fun e he => (List.not_mem_nil he).elim
  refine sat_refused hw ?_
  refine sat_look hquiet (fun h => (present_returns h).2) fun v _ _ _ => ?_
  have hquiet := hquiet.cons (.resolveDirectory directory) v
  refine sat_look hquiet (fun h => (present_returns h).2) fun v manifestInside _ _ => ?_
  have hquiet := hquiet.cons (.resolve directory .root adapterManifest) v
  refine sat_look hquiet (fun h => (present_returns h).2) fun v adapterInside _ _ => ?_
  have hquiet := hquiet.cons (.resolve directory .root adapterDirectory) v
  refine sat_check hquiet (.inl rfl) fun _ => ?_
  refine sat_look hquiet (fun h => (present_returns h).2) fun v isFolder _ _ => ?_
  have hquiet := hquiet.cons (.isFolder directory .root adapterDirectory) v
  refine sat_check hquiet (.inl rfl) fun _ => ?_
  refine sat_look hquiet (fun h => (present_returns h).2) fun v content hv _ => ?_
  have hquiet := hquiet.cons (.read directory .root adapterManifest) v
  refine sat_check hquiet (.inl rfl) fun hdigest => ?_
  refine sat_parse hquiet fun manifest _ => ?_
  refine sat_check hquiet (.inl rfl) ?_
  rintro ⟨rfl, hcheckpoint⟩
  refine Sat.bind hv ((sat_checkFiles hquiet).mono ?_ fun _ _ _ he => he)
  rintro _ past' _ ⟨hfiles, hquiet'⟩
  exact Sat.ret fun _ _ _ => ⟨hdigest, hcheckpoint, hfiles, hquiet'⟩

/-- What each call answers. -/
def Answers (given : Inputs p) :
    (call : Call) → call.Value → List (Event (children p)) → World → Prop
  | .claim inputs expectedKind => Claims given inputs expectedKind
  | .readPrompts _ trusted => ReadsPrompts p trusted
  | .readAdapter directory trusted => ReadsAdapter p directory trusted

/-- The one error of each call. -/
def Call.refusal : Call → String
  | .claim _ _ => "trusted_input_claim"
  | .readPrompts _ _ => "trusted_prompt_integrity"
  | .readAdapter _ _ => "trusted_adapter_integrity"

theorem sat_prog (call : Call) (hw : Written given w) :
    Sat (terms given) (Answers given call) (Refused call.refusal) (call.prog p) [] w := by
  cases call with
  | claim inputs expectedKind => exact sat_claim hw
  | readPrompts directory trusted => exact sat_readPrompts hw
  | readAdapter directory trusted => exact sat_readAdapter hw

/-! ## Runs -/

theorem ready_materialized {token : Token} :
    (materialized given).ready token =
      (given.all.find? fun m => m.inputs.token == token).map fun m => m.inputs.canonicalBytes := by
  cases hfind : given.all.find? fun m => m.inputs.token == token with
  | none => simp only [World.ready, materialized, hfind, Option.map_none, Option.bind_none]
  | some m =>
    simp only [World.ready, materialized, hfind, Option.map_some, Option.bind_some]
    rfl

theorem written_materialized : Written given (materialized given) := by
  intro token raw h
  rw [ready_materialized, Option.map_eq_some_iff] at h
  obtain ⟨m, hm, rfl⟩ := h
  exact ⟨m, List.mem_of_find?_eq_some hm, by simpa using List.find?_some hm, rfl⟩

variable {cfg : Config (children p)}

/-- Every job of a run stands where its checked program allows. -/
theorem sound (h : Reachable free (materialized given) cfg) :
    Written given cfg.world ∧ ∀ j ∈ cfg.jobs, ∀ q, j.rest = some q →
      Sat (terms given) (Answers given j.call) (Refused j.call.refusal) q j.history cfg.world :=
  (terms given).sound (Answers given) (fun call => Refused call.refusal) (fun _ _ => trivial)
    (fun call _ hw => sat_prog call hw) h written_materialized

theorem ready_change {w : World} {t token : Token} {f : Directory → Option Directory}
    (h : t = token → ∀ d, (f d).bind Directory.ready = d.ready) :
    (w.change t f).ready token = w.ready token := by
  unfold World.change
  split
  · next directory hd =>
    by_cases ht : token = t
    · subst ht
      simp only [World.ready, World.setDirectory, if_true, hd, Option.bind_some]
      exact h rfl directory
    · simp only [World.ready, World.setDirectory, ht, if_false]
  · rfl

theorem ready_removal {w : World} {t token : Token} {f : Directory → Option Directory}
    (hremoving : w.removing token = false) :
    (if w.removing t then w.change t f else w).ready token = w.ready token := by
  split
  · next ht =>
    refine ready_change ?_
    rintro rfl
    rw [hremoving] at ht
    cases ht
  · rfl

/-- What the parent has not left, no tick takes. -/
theorem Tick.ready {tick : Tick} {w : World} {token : Token} (h : w.removing token = false) :
    (tick.apply w).ready token = w.ready token := by
  cases tick with
  | leave t => rfl
  | unlinkReady t => exact ready_removal h
  | unlinkClaimed t => exact ready_removal h
  | unlinkEntry t folder name => exact ready_removal h
  | removeDirectory t => exact ready_removal h
  | alter t folder name entry => exact ready_change fun _ _ => rfl

theorem removing_change (w : World) (t : Token) (f : Directory → Option Directory) :
    (w.change t f).removing = w.removing := by
  unfold World.change
  split <;> rfl

theorem Tick.removing {tick : Tick} {w : World} {token : Token}
    (h : (tick.apply w).removing token = false) : w.removing token = false := by
  have hremoval : ∀ {t : Token} {f : Directory → Option Directory},
      (if w.removing t then w.change t f else w).removing = w.removing := by
    intro t f
    split
    · exact removing_change w t f
    · rfl
  cases tick with
  | leave t =>
    have h : (token == t || w.removing token) = false := h
    exact (Bool.or_eq_false_iff.mp h).2
  | unlinkReady t => exact hremoval ▸ h
  | unlinkClaimed t => exact hremoval ▸ h
  | unlinkEntry t folder name => exact hremoval ▸ h
  | removeDirectory t => exact hremoval ▸ h
  | alter t folder name entry => exact removing_change w t _ ▸ h

theorem except_bind {ε α β : Type} {x : Except ε α} {f : α → Except ε β} {b : β}
    (h : (x >>= f) = .ok b) : ∃ a, x = .ok a ∧ f a = .ok b := by
  cases x with
  | error e => cases h
  | ok a => exact ⟨a, rfl, h⟩

theorem except_ite {ε α : Type} {P : Prop} [Decidable P] {e : ε} {x : Except ε α} {a : α}
    (h : (if P then .error e else x) = .ok a) : ¬ P ∧ x = .ok a := by
  split at h
  · cases h
  · next hp => exact ⟨hp, h⟩

variable {view : ParentView} {record : ExecutionRecord p.Spec}

theorem envelope_ok {inputs inputs' : TrustedRunInputs} (h : envelope inputs = .ok inputs') :
    inputs.valid = true ∧ inputs = inputs' := by
  unfold envelope at h
  split at h
  · next hvalid =>
    cases h
    exact ⟨hvalid, rfl⟩
  · cases h

/-- The envelope is the run's own. -/
def OwnEnvelope (record : ExecutionRecord p.Spec) (inputs : TrustedRunInputs) : Prop :=
  inputs.runKind = record.kind ∧ inputs.specSha256 = record.specSha256 ∧
    inputs.runBindingSha256 = runBinding record ∧ inputs.valid = true

/-- Prompts that the parent read from an authorized artifact of the run's spec. -/
def PromptsOf (view : ParentView) (record : ExecutionRecord p.Spec) (source : PromptSource)
    (authorized : List Text) : Prop :=
  ∃ artifact,
    authorizedArtifact view record source.artifactId .promptSet source.contentSha256 none =
      .ok artifact ∧
    readArtifact view p.sha256 artifact maxRlPromptArtifactBytes = .ok (promptBytes authorized) ∧
    authorized.length = source.promptCount

theorem materializePrompts_ok {source : PromptSource} {inputs : TrustedRunInputs}
    {payload : Payload} (h : materializePrompts view record source = .ok (inputs, payload)) :
    OwnEnvelope record inputs ∧
      inputs.prompt = some ⟨source.artifactId, source.contentSha256, source.promptCount⟩ ∧
      inputs.peftAdapter = none ∧ ∃ authorized, PromptsOf view record source authorized := by
  obtain ⟨artifact, hartifact, h⟩ := except_bind h
  obtain ⟨content, hcontent, h⟩ := except_bind h
  split at h
  · cases h
  · next prompts _ =>
    obtain ⟨hsame, h⟩ := except_ite h
    simp only [not_or, ne_eq, not_not] at hsame
    obtain ⟨rfl, -, hcount⟩ := hsame
    obtain ⟨token, -, h⟩ := except_bind h
    obtain ⟨inputs', henvelope, h⟩ := except_bind h
    obtain ⟨hvalid, rfl⟩ := envelope_ok henvelope
    cases h
    exact ⟨⟨rfl, rfl, rfl, hvalid⟩, rfl, rfl, prompts, artifact, hartifact, hcontent, hcount⟩

/-- A checkpoint that the parent read from an authorized result of the run's selection. -/
def CheckpointOf (view : ParentView) (record : ExecutionRecord p.Spec)
    (selection : AdapterSelection) (authorized : TrainingResult p.sha256) : Prop :=
  ∃ artifact content,
    authorizedArtifact view record selection.artifactId .runResult selection.artifactSha256
      (some .trainPhonRl) = .ok artifact ∧
    readArtifact view p.sha256 artifact maxRlResultBytes = .ok content ∧
    p.trainingResult content = some authorized ∧
    authorized.checkpointSha256 = selection.checkpointSha256

theorem materializeAdapter_ok {request : LocalRequest} {selection : AdapterSelection}
    {inputs : TrustedRunInputs} {payload : Payload}
    (h : materializeAdapter view record request selection = .ok (inputs, payload)) :
    OwnEnvelope record inputs ∧ inputs.prompt = none ∧
      ∃ authorized, CheckpointOf view record selection authorized ∧
        inputs.peftAdapter = some ⟨selection.artifactId, selection.artifactSha256,
          selection.checkpointSha256, p.sha256 authorized.manifest.canonicalBytes⟩ := by
  unfold materializeAdapter at h
  split at h
  · cases h
  · next policy _ =>
    obtain ⟨artifact, hartifact, h⟩ := except_bind h
    obtain ⟨content, hcontent, h⟩ := except_bind h
    split at h
    · cases h
    · next result hresult =>
      obtain ⟨hsame, h⟩ := except_ite h
      have hcheckpoint := not_not.mp (not_or.mp hsame).1
      obtain ⟨same, -, h⟩ := except_bind h
      obtain ⟨-, h⟩ := except_ite h
      obtain ⟨-, h⟩ := except_ite h
      obtain ⟨token, -, h⟩ := except_bind h
      obtain ⟨-, h⟩ := except_ite h
      obtain ⟨inputs', henvelope, h⟩ := except_bind h
      obtain ⟨hvalid, rfl⟩ := envelope_ok henvelope
      cases h
      exact ⟨⟨rfl, rfl, rfl, hvalid⟩, rfl, result,
        ⟨artifact, content, hartifact, hcontent, hresult, hcheckpoint⟩, rfl⟩

/-- What the parent yields is for prompts of the spec or for an adapter of it. -/
theorem materialize_ok {inputs : TrustedRunInputs} {payload : Payload}
    (h : materialize view record = .ok (some (inputs, payload))) :
    (∃ source, p.trainingRequest record.spec = some (some source) ∧
        materializePrompts view record source = .ok (inputs, payload)) ∨
      ∃ request selection, p.localRequest record.spec = some request ∧
        request.phonRlAdapter = some selection ∧
        materializeAdapter view record request selection = .ok (inputs, payload) := by
  have hmap : ∀ {x : Except Raised (TrustedRunInputs × Payload)},
      x.map some = .ok (some (inputs, payload)) → x = .ok (inputs, payload) := by
    intro x hx
    cases x with
    | error e => cases hx
    | ok a =>
      cases hx
      rfl
  unfold materialize at h
  dsimp only at h
  split at h
  · cases h
  split at h
  · split at h
    · cases h
    · cases h
    · next source hsource => exact .inl ⟨source, hsource, hmap h⟩
  · split at h
    · cases h
    · next request hrequest =>
      split at h
      · cases h
      · next selection hselection =>
        exact .inr ⟨request, selection, hrequest, hselection, hmap h⟩
  · cases h

theorem Materialization.own (m : Materialization p) : OwnEnvelope m.record m.inputs := by
  obtain ⟨source, -, h⟩ | ⟨request, selection, -, -, h⟩ := materialize_ok m.made
  · exact (materializePrompts_ok h).1
  · exact (materializeAdapter_ok h).1

/-- The digest does not collide on the two contents. -/
def Apart (p : Platform) (content content' : Bytes) : Prop :=
  p.sha256 content = p.sha256 content' → content = content'

end Runs

/-! ## A small root -/

def smallPrompts : List Text := ["a".toList]

def smallDigest : Text :=
  "406d715de651f140b7619a8f8fa1620f780e1feee2e1d3c9aa0bc86dec7170dd".toList

def smallToken : Token := List.replicate 64 '7'

def smallView : ParentView where
  artifacts := [⟨4, 1, 2, none, .promptSet, .active, smallDigest, (promptBytes smallPrompts).length,
    "application/json".toList, "prompts".toList⟩]
  runs := []
  objects _ := some ⟨smallDigest, (promptBytes smallPrompts).length, "application/json".toList,
    [promptBytes smallPrompts], false⟩
  localPolicies := []
  draws := [smallToken]
  taken _ := false

end CorpusKit.TrustedInputs
