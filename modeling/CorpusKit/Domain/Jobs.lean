import CorpusKit.Domain.Errors
import CorpusKit.Library.Transaction

/-! # Durable run kinds, states and transitions -/

namespace CorpusKit

open Transaction

inductive RunKind
  | phonemize
  | evaluate
  | distribution
  | trajectory
  | errorRates
  | perplexity
  | select
  | generateRepository
  | generateLlm
  | generateLocal
  | buildDatgIndex
  | generateDatg
  | trainPhonRl
  | export
  deriving DecidableEq, Repr

def RunKind.value : RunKind → String
  | .phonemize => "phonemize"
  | .evaluate => "evaluate"
  | .distribution => "distribution"
  | .trajectory => "trajectory"
  | .errorRates => "error-rates"
  | .perplexity => "perplexity"
  | .select => "select"
  | .generateRepository => "generate-repository"
  | .generateLlm => "generate-llm"
  | .generateLocal => "generate-local"
  | .buildDatgIndex => "build-datg-index"
  | .generateDatg => "generate-datg"
  | .trainPhonRl => "train-phon-rl"
  | .export => "export"

inductive RunState
  | draft
  | queued
  | provisioning
  | running
  | cancelling
  | cancelled
  | succeeded
  | failed
  deriving DecidableEq, Repr

def RunState.value : RunState → String
  | .draft => "draft"
  | .queued => "queued"
  | .provisioning => "provisioning"
  | .running => "running"
  | .cancelling => "cancelling"
  | .cancelled => "cancelled"
  | .succeeded => "succeeded"
  | .failed => "failed"

/-- `_TRANSITIONS`. -/
def transitions : RunState → List RunState
  | .draft => [.queued, .cancelled]
  | .queued => [.provisioning, .cancelling, .cancelled, .failed]
  | .provisioning => [.running, .cancelling, .failed]
  | .running => [.succeeded, .failed, .cancelling]
  | .cancelling => [.cancelled, .failed]
  | .cancelled => []
  | .succeeded => []
  | .failed => []

/-- The declared transition relation. -/
def Moves (current target : RunState) : Prop := target ∈ transitions current

instance (current target : RunState) : Decidable (Moves current target) :=
  inferInstanceAs (Decidable (_ ∈ _))

/-- Fail closed when a durable job attempts an invalid state change. -/
def ensureTransition {σ : Type} (current target : RunState) : Tx σ Error Unit :=
  require (Moves current target)
    (.invalidStateTransition (current.value ++ "->" ++ target.value))

/-- Whether a run can no longer transition. -/
def isTerminal (state : RunState) : Bool := (transitions state).isEmpty

/-- The states a run may leave for `target`, as `isTerminal` sees them. -/
theorem not_isTerminal_of_moves {s t : RunState} (h : Moves s t) : isTerminal s = false := by
  cases s <;> first | rfl | cases h

@[simp] theorem isTerminal_eq_true {s : RunState} :
    isTerminal s = true ↔ s = .cancelled ∨ s = .succeeded ∨ s = .failed := by
  cases s <;> decide

@[simp] theorem isTerminal_eq_false {s : RunState} :
    isTerminal s = false ↔ s ≠ .cancelled ∧ s ≠ .succeeded ∧ s ≠ .failed := by
  cases s <;> decide

end CorpusKit
