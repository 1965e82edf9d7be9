import Mathlib.Data.List.Infix
import CorpusKit.Library.Table

/-! # A file system and its atomic steps

Files and directories under one root, by the components of their paths. The
steps are those a crash can fall between: making directories, writing a file
whole, renaming it over another, unlinking it. -/

namespace Files

abbrev Path := List (List Char)

structure File (γ : Type) where
  content : γ
  modifiedAt : Nat
  deriving DecidableEq, Repr

/-- The root itself is not among the directories. -/
structure Disk (γ : Type) where
  files : Table Path (File γ) := ∅
  directories : List Path := []

inductive Action (γ : Type)
  | mkdir (path : Path)
  | write (path : Path) (content : γ)
  | rename (source target : Path)
  | unlink (path : Path)
  deriving DecidableEq, Repr

variable {γ : Type} {disk : Disk γ} {p q : Path} {f : File γ}

/-- `path.exists()`. -/
def Disk.exists (disk : Disk γ) (p : Path) : Bool :=
  (disk.files.lookup p).isSome || disk.directories.contains p

/-- The path or one above it is a file, so no directory can be made of it. -/
def Disk.blocks (disk : Disk γ) (p : Path) : Bool :=
  p.inits.any fun q => (disk.files.lookup q).isSome

/-- `path.mkdir(parents=True, exist_ok=True)`: the path and those above it. -/
def parents (p : Path) : List Path := p.inits.filter fun q => !q.isEmpty

def Action.apply (now : Nat) (disk : Disk γ) : Action γ → Disk γ
  | .mkdir p => { disk with directories := parents p ++ disk.directories }
  | .write p content => { disk with files := disk.files.insert p ⟨content, now⟩ }
  | .rename source target =>
    match disk.files.lookup source with
    | none => disk
    | some file => { disk with files := (disk.files.erase source).insert target file }
  | .unlink p => { disk with files := disk.files.erase p }

def run (now : Nat) (disk : Disk γ) (actions : List (Action γ)) : Disk γ :=
  actions.foldl (Action.apply now) disk

theorem mem_parents : q ∈ parents p ↔ q ≠ [] ∧ q <+: p := by
  rw [parents, List.mem_filter, List.mem_inits]
  simp [and_comm]

theorem Disk.not_blocks (h : ∀ {q f}, disk.files.lookup q = some f → ¬ q <+: p) :
    disk.blocks p = false := by
  rw [Disk.blocks, List.any_eq_false]
  intro q hq hsome
  obtain ⟨f, hf⟩ := Option.isSome_iff_exists.mp hsome
  exact h hf ((List.mem_inits q p).mp hq)

theorem lookup_insert {t : Table Path (File γ)} :
    (t.insert p f).lookup q = if q = p then some f else t.lookup q := by
  by_cases hq : q = p
  · rw [if_pos hq, hq, AList.lookup_insert]
  · rw [if_neg hq, AList.lookup_insert_ne hq]

theorem lookup_erase {t : Table Path (File γ)} :
    (t.erase p).lookup q = if q = p then none else t.lookup q := by
  by_cases hq : q = p
  · rw [if_pos hq, hq, AList.lookup_erase]
  · rw [if_neg hq, AList.lookup_erase_ne hq]

end Files
