import Mathlib.Data.Rat.Defs

/-! # Progress reports

What a run says of itself while it runs. A report has a number in its attempt, a
phase, and what is counted in that phase. -/

namespace CorpusKit

def maxDurableProgressMessages : Nat := 128

def maxDurableProgressTotal : Nat := 10000

/-- A float: the number it denotes, or none for an infinity and for NaN. -/
abbrev Number := Option ℚ

/-- `ge=0.0, le=1.0` of a model that forbids infinities and NaN. -/
def Number.InUnit (x : Number) : Prop := ∃ q ∈ x, 0 ≤ q ∧ q ≤ 1

instance (x : Number) : Decidable x.InUnit :=
  match x with
  | none => isFalse fun ⟨_, hq, _⟩ => nomatch hq
  | some q => decidable_of_iff (0 ≤ q ∧ q ≤ 1) ⟨fun h => ⟨q, rfl, h⟩, fun ⟨_, hq, h⟩ => by cases hq; exact h⟩

inductive RunProgressPhase
  | validating
  | preparingRepository
  | generating
  | candidateAccepted
  | stagingResult
  | preparingTraining
  | training
  | checkpointing
  | finished
  | failed
  deriving DecidableEq, Repr

def RunProgressPhase.value : RunProgressPhase → String
  | .validating => "validating"
  | .preparingRepository => "preparing_repository"
  | .generating => "generating"
  | .candidateAccepted => "candidate_accepted"
  | .stagingResult => "staging_result"
  | .preparingTraining => "preparing_training"
  | .training => "training"
  | .checkpointing => "checkpointing"
  | .finished => "finished"
  | .failed => "failed"

def RunProgressPhase.all : List RunProgressPhase :=
  [.validating, .preparingRepository, .generating, .candidateAccepted, .stagingResult,
    .preparingTraining, .training, .checkpointing, .finished, .failed]

/-- `RunProgressPhase(value)`. -/
def RunProgressPhase.ofValue (value : String) : Option RunProgressPhase :=
  RunProgressPhase.all.find? fun phase => phase.value == value

/-- The phases after which a run reports nothing more. -/
def RunProgressPhase.Terminal (phase : RunProgressPhase) : Prop := phase = .finished ∨ phase = .failed

structure DurableRunProgress where
  sequence : Nat
  phase : RunProgressPhase
  completed : Option Nat
  total : Option Nat
  coverage : Option Number
  acceptedCount : Option Nat
  deriving DecidableEq, Repr

/-- The checks of the model, which `normalize_progress` repeats. -/
structure DurableRunProgress.Valid (p : DurableRunProgress) : Prop where
  sequence : p.sequence < maxDurableProgressMessages
  completed : ∀ n ∈ p.completed, n ≤ maxDurableProgressTotal
  total : ∀ n ∈ p.total, 1 ≤ n ∧ n ≤ maxDurableProgressTotal
  coverage : ∀ x ∈ p.coverage, x.InUnit
  acceptedCount : ∀ n ∈ p.acceptedCount, n ≤ maxDurableProgressTotal
  together : p.completed.isNone = p.total.isNone
  within : ∀ n ∈ p.completed, ∀ m ∈ p.total, n ≤ m

instance (p : DurableRunProgress) : Decidable p.Valid :=
  decidable_of_iff (p.sequence < maxDurableProgressMessages ∧
      (∀ n ∈ p.completed, n ≤ maxDurableProgressTotal) ∧
      (∀ n ∈ p.total, 1 ≤ n ∧ n ≤ maxDurableProgressTotal) ∧ (∀ x ∈ p.coverage, x.InUnit) ∧
      (∀ n ∈ p.acceptedCount, n ≤ maxDurableProgressTotal) ∧
      p.completed.isNone = p.total.isNone ∧ ∀ n ∈ p.completed, ∀ m ∈ p.total, n ≤ m)
    ⟨fun ⟨h1, h2, h3, h4, h5, h6, h7⟩ => ⟨h1, h2, h3, h4, h5, h6, h7⟩,
      fun ⟨h1, h2, h3, h4, h5, h6, h7⟩ => ⟨h1, h2, h3, h4, h5, h6, h7⟩⟩

end CorpusKit
