import CorpusKit.Maintenance.Sweep

/-! # Maintenance runs

`run_once` reads the two cursors that the last run has stored, checks them against
the accepted grammar, and goes on from there: at most so many pages of the
reconciliation and of the staging cleanup, and after each page the cursor that the
page answered is checked and stored. -/

namespace CorpusKit.Maintenance

open Paging

/-! ## The accepted grammar -/

def isLowerHex (c : Char) : Bool := ('0' ≤ c && c ≤ '9') || ('a' ≤ c && c ≤ 'f')

/-- `[0-9a-f]{count}`. -/
def isHex (count : Nat) (s : List Char) : Bool := s.length == count && s.all isLowerHex

/-- The kinds that `_ARTIFACT_CURSOR` names. -/
def cursorKinds : List (List Char) :=
  ["run-manifest".toList, "corpus-text".toList, "evaluation-report".toList, "export".toList,
    "checkpoint".toList, "model-adapter".toList, "run-result".toList]

/-- `_ARTIFACT_CURSOR.fullmatch`; no part of the pattern matches a slash. -/
def artifactCursor (cursor : String) : Bool :=
  match cursor.toList.splitOn '/' with
  | [base, version, organization, project, scope, kind, head, digest] =>
    base == "artifacts".toList && version == "v1".toList && isHex 32 organization &&
      isHex 32 project && (scope == "project".toList || isHex 32 scope) &&
      cursorKinds.contains kind && isHex 2 head && isHex 64 digest
  | _ => false

/-- `_STAGING_CURSOR.fullmatch`. -/
def stagingCursor (cursor : String) : Bool :=
  match cursor.toList.splitOn '/' with
  | [base, version, algorithm, head, digest] =>
    base == "staging".toList && version == "v1".toList && algorithm == "sha256".toList &&
      isHex 2 head && isHex 64 digest
  | _ => false

inductive Failure
  /-- `ValueError`, with its text. -/
  | invalid (text : String)
  | reconcile (error : Error)
  /-- `ArtifactAdoptionError`. -/
  | staging (code : String) (retryable : Bool)
  deriving DecidableEq, Repr

/-- `_validate_cursor`. -/
def validateCursor (value : Option String) (pattern : String → Bool) (label : String) :
    Except Failure Unit :=
  if value.all pattern then .ok () else .error (.invalid (label ++ " cursor is invalid"))

/-- `_validate_progress`. -/
def validateProgress (current next : Option String) (pattern : String → Bool) (label : String) :
    Except Failure Unit := do
  validateCursor next pattern label
  match next, current with
  | some n, some c =>
    if n ≤ c then .error (.invalid (label ++ " cursor did not advance")) else .ok ()
  | _, _ => .ok ()

/-! ## What is maintained -/

/-- The stored objects, each under a key of one of the two builders, and the table. -/
structure Inventory where
  stored : List StorageKey
  distinct : (stored.map StorageKey.render).Nodup
  table : ArtifactService.ArtifactTable

def Inventory.keys (inv : Inventory) : List String := inv.stored.map StorageKey.render

/-- The inventory without some of its objects. -/
def Inventory.without (inv : Inventory) (gone : String → Bool) : Inventory where
  stored := inv.stored.filter fun key => !gone key.render
  distinct := inv.distinct.sublist (List.Sublist.map _ List.filter_sublist)
  table := inv.table

/-- With the cursors of `MaintenanceCursor`, one for each operation. -/
structure State where
  inventory : Inventory
  reconciliation : Option String
  staging : Option String

/-- `_STAGING_PREFIX`. -/
def stagingNamespace : String := "staging/v1/sha256/"

/-- `list_keys` of the staging namespace, after `_validate_listing`. -/
def listStaging (stored : List String) (limit : Nat) (after : Option String) :
    Option (List String) :=
  if (decide (1 ≤ limit ∧ limit ≤ 10000) && after.all fun cursor =>
      ObjectStore.validKey cursor && ObjectStore.startsWith cursor stagingNamespace) then
    some (((stored.filter fun key => ObjectStore.startsWith key stagingNamespace &&
      after.all fun cursor => decide (cursor < key)).insertionSort (· ≤ ·)).take limit)
  else none

structure StagingPage where
  keys : List String
  nextCursor : Option String
  deriving DecidableEq, Repr

/-- `cleanup_staging` up to its deletions. -/
def stagingPage (stored : List String) (cursor : Option String) (limit : Nat) :
    Except Failure StagingPage :=
  if 1 ≤ limit ∧ limit ≤ 1000 then
    match listStaging stored limit cursor with
    | none => .error (.staging "staging_store_unavailable" true)
    | some keys => .ok ⟨keys, if keys.length = limit then keys.getLast? else none⟩
  else .error (.invalid "staging cleanup limit is invalid")

/-! ## One run -/

/-- What the rest of the world decides during one run: what the steps before the
pages remove, and which of the old keys of a page can be deleted. -/
structure Surroundings where
  purged : Inventory → Inventory
  /-- Quota expiry and `purge_due` store no object and revive no row. -/
  shrinks : ∀ inv, (∀ key ∈ (purged inv).stored, key ∈ inv.stored) ∧
    ∀ e ∈ (purged inv).table.artifacts.rows, e.2.state ≠ .deleted →
      ∃ e' ∈ inv.table.artifacts.rows, e'.2.state ≠ .deleted ∧ e'.2.storageKey = e.2.storageKey
  orphanGone : String → Bool
  stagedGone : String → Bool

/-- The loop over `reconcile_orphans`. No other scheduler runs, so `advance` finds the
cursor that the run has read. -/
def reconcilePages (s : Surroundings) (limit : Nat) : Nat → State → Except Failure State
  | 0, st => .ok st
  | pages + 1, st => do
    let page ← (ArtifactService.reconcile st.inventory.keys st.inventory.table.artifacts
      st.reconciliation limit).mapError .reconcile
    let left := st.inventory.without fun key => page.orphans.contains key && s.orphanGone key
    validateProgress st.reconciliation page.nextCursor artifactCursor "reconciliation"
    let next : State := { st with inventory := left, reconciliation := page.nextCursor }
    if page.nextCursor.isNone then .ok next else reconcilePages s limit pages next

/-- The loop over `cleanup_staging`. -/
def stagingPages (s : Surroundings) (limit : Nat) : Nat → State → Except Failure State
  | 0, st => .ok st
  | pages + 1, st => do
    let page ← stagingPage st.inventory.keys st.staging limit
    let left := st.inventory.without fun key => page.keys.contains key && s.stagedGone key
    validateProgress st.staging page.nextCursor stagingCursor "staging"
    let next : State := { st with inventory := left, staging := page.nextCursor }
    if page.nextCursor.isNone then .ok next else stagingPages s limit pages next

structure Limits where
  limit : Nat
  reconciliationPages : Nat
  stagingPages : Nat

/-- `run_once`, as far as it depends on the two listings. -/
def runOnce (l : Limits) (s : Surroundings) (st : State) : Except Failure State :=
  if ¬ (1 ≤ l.limit ∧ l.limit ≤ 1000) then
    .error (.invalid "maintenance limit must be between 1 and 1000")
  else if ¬ (1 ≤ l.stagingPages ∧ l.stagingPages ≤ 20) then
    .error (.invalid "staging page limit must be between 1 and 20")
  else if ¬ (1 ≤ l.reconciliationPages ∧ l.reconciliationPages ≤ 20) then
    .error (.invalid "reconciliation page limit must be between 1 and 20")
  else do
    validateCursor st.reconciliation artifactCursor "reconciliation"
    validateCursor st.staging stagingCursor "staging"
    let st := { st with inventory := s.purged st.inventory }
    let st ← reconcilePages s l.limit l.reconciliationPages st
    stagingPages s l.limit l.stagingPages st

/-- The first `n` of a sequence of runs. -/
def runs (l : Nat → Limits) (s : Nat → Surroundings) (st : State) : Nat → Except Failure State
  | 0 => .ok st
  | n + 1 => do
    let before ← runs l s st n
    runOnce (l n) (s n) before

end CorpusKit.Maintenance
