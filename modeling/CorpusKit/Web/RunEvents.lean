import CorpusKit.Services.RunQueries

/-! # The event feed of a run

What the detail view of a run does with the pages of its log: events are merged by
their sequence number, and the next page is asked for after the greatest one. -/

namespace CorpusKit.Web

/-- `bySequence.set`: a key that is there keeps its place. -/
def setSequence (m : List (Nat × EventSnapshot)) (e : EventSnapshot) : List (Nat × EventSnapshot) :=
  if (m.map Prod.fst).contains e.sequence then
    m.map fun entry => if entry.1 == e.sequence then (entry.1, e) else entry
  else m ++ [(e.sequence, e)]

/-- The loop over `incoming`: what is already there stays. -/
def addIncoming (m : List (Nat × EventSnapshot)) (incoming : List EventSnapshot) :
    List (Nat × EventSnapshot) :=
  incoming.foldl
    (fun m e => if (m.map Prod.fst).contains e.sequence then m else setSequence m e) m

def mergeMonotonicEvents (current incoming : List EventSnapshot) : List EventSnapshot :=
  let bySequence := current.foldl setSequence []
  ((addIncoming bySequence incoming).map Prod.snd).insertionSort fun a b => a.sequence ≤ b.sequence

def nextEventCursor (events : List EventSnapshot) : Nat :=
  events.foldl (fun greatest event => max greatest event.sequence) 0

def isTerminalRun (state : RunState) : Bool :=
  state == .cancelled || state == .succeeded || state == .failed

/-! ## The view -/

inductive Connection where
  | connected
  | reconnecting
  | stopped
  deriving DecidableEq, Repr

/-- A poll whose answers are not both there yet. -/
structure Poll where
  after : Nat
  latest : Option RunState
  incoming : Option (List EventSnapshot)
  deriving DecidableEq, Repr

/-- The state of `RunDetail`. -/
structure RunDetail where
  events : List EventSnapshot
  cursor : Nat
  connection : Connection
  poll : Option Poll
  deriving DecidableEq, Repr

namespace RunDetail

def mount : RunDetail := ⟨[], 0, .connected, none⟩

/-- `poll`: both requests are sent, unless a poll is under way or the run is over. -/
def send (view : RunDetail) : RunDetail :=
  if view.poll.isSome ∨ view.connection = .stopped then view
  else { view with poll := some ⟨view.cursor, none, none⟩ }

def answerRun (view : RunDetail) (state : RunState) : RunDetail :=
  { view with poll := view.poll.map fun p => { p with latest := some state } }

def answerEvents (view : RunDetail) (page : List EventSnapshot) : RunDetail :=
  { view with poll := view.poll.map fun p => { p with incoming := some page } }

/-- `setEvents` and what follows it. -/
def receive (view : RunDetail) (latest : RunState) (incoming : List EventSnapshot) : RunDetail :=
  let merged := mergeMonotonicEvents view.events incoming
  { events := merged, cursor := nextEventCursor merged, poll := none
    connection := if isTerminalRun latest then .stopped else .connected }

/-- After `Promise.all`. -/
def settle (view : RunDetail) : RunDetail :=
  match view.poll with
  | none => view
  | some p =>
    match p.latest, p.incoming with
    | some latest, some incoming => view.receive latest incoming
    | _, _ => view

/-- A request failed, or its answer is not of the contract. -/
def fail (view : RunDetail) : RunDetail :=
  if view.poll.isSome then { view with connection := .reconnecting, poll := none } else view

end RunDetail

/-! ## Merging -/

section Merge

variable {m : List (Nat × EventSnapshot)} {current incoming : List EventSnapshot} {e : EventSnapshot}

/-- Entries under their own numbers, one for a number. -/
def Keyed (m : List (Nat × EventSnapshot)) : Prop :=
  (m.map Prod.fst).Nodup ∧ ∀ entry ∈ m, entry.1 = entry.2.sequence

theorem setSequence_new (h : e.sequence ∉ m.map Prod.fst) :
    setSequence m e = m ++ [(e.sequence, e)] := by
  rw [setSequence, if_neg (by rwa [List.contains_iff_mem])]

theorem Keyed.append (hm : Keyed m) (h : e.sequence ∉ m.map Prod.fst) :
    Keyed (m ++ [(e.sequence, e)]) := by
  constructor
  · rw [List.map_append, List.nodup_append]
    refine ⟨hm.1, List.nodup_singleton _, fun a ha b hb hab => h ?_⟩
    obtain rfl : b = e.sequence := List.mem_singleton.mp hb
    exact hab ▸ ha
  · intro entry hentry
    obtain hentry | hentry := List.mem_append.mp hentry
    · exact hm.2 entry hentry
    · rw [List.mem_singleton.mp hentry]

/-- The map of events with distinct numbers lists them as they are. -/
theorem bySequence_eq (h : (current.map EventSnapshot.sequence).Nodup) :
    current.foldl setSequence [] = current.map fun e => (e.sequence, e) := by
  suffices hprefix : ∀ before, ((before ++ current).map EventSnapshot.sequence).Nodup →
      current.foldl setSequence (before.map fun e => (e.sequence, e)) =
        (before ++ current).map fun e => (e.sequence, e) from hprefix [] h
  clear h
  induction current with
  | nil => simp
  | cons e rest ih =>
    intro before hnodup
    have hfresh : e.sequence ∉ (before.map fun e => (e.sequence, e)).map Prod.fst := by
      rw [List.map_append, List.map_cons, List.nodup_append] at hnodup
      rw [List.map_map]
      intro hmem
      exact hnodup.2.2 _ hmem _ List.mem_cons_self rfl
    rw [List.foldl_cons, setSequence_new hfresh]
    have hstep := ih (before ++ [e]) (by rwa [List.append_assoc])
    rw [List.map_append, List.append_assoc] at hstep
    exact hstep

theorem keyed_map (h : (current.map EventSnapshot.sequence).Nodup) :
    Keyed (current.map fun e => (e.sequence, e)) := by
  constructor
  · rwa [List.map_map]
  · intro entry hentry
    obtain ⟨e, -, rfl⟩ := List.mem_map.mp hentry
    rfl

/-- What the loop over the page leaves. -/
theorem addIncoming_spec (incoming : List EventSnapshot) (hm : Keyed m) :
    Keyed (addIncoming m incoming) ∧
      (∀ n, n ∈ (addIncoming m incoming).map Prod.fst ↔
        n ∈ m.map Prod.fst ∨ n ∈ incoming.map EventSnapshot.sequence) ∧
      ∀ entry ∈ addIncoming m incoming, entry ∈ m ∨ entry.2 ∈ incoming := by
  induction incoming generalizing m with
  | nil => exact ⟨hm, fun n => by simp [addIncoming], fun entry h => .inl h⟩
  | cons e rest ih =>
    by_cases hseen : e.sequence ∈ m.map Prod.fst
    · have hstep : addIncoming m (e :: rest) = addIncoming m rest := by
        rw [addIncoming, List.foldl_cons, if_pos (by rwa [List.contains_iff_mem])]
        rfl
      obtain ⟨hkeyed, hkeys, hentries⟩ := ih hm
      rw [hstep]
      refine ⟨hkeyed, fun n => ?_, fun entry hentry =>
        (hentries entry hentry).imp_right (List.mem_cons_of_mem _)⟩
      rw [hkeys, List.map_cons, List.mem_cons]
      constructor
      · exact Or.imp_right .inr
      · rintro (h | rfl | h)
        · exact .inl h
        · exact .inl hseen
        · exact .inr h
    · have hstep : addIncoming m (e :: rest) = addIncoming (m ++ [(e.sequence, e)]) rest := by
        rw [addIncoming, List.foldl_cons, if_neg (by rwa [List.contains_iff_mem]),
          setSequence_new hseen]
        rfl
      obtain ⟨hkeyed, hkeys, hentries⟩ := ih (hm.append hseen)
      rw [hstep]
      refine ⟨hkeyed, fun n => ?_, fun entry hentry => ?_⟩
      · rw [hkeys, List.map_append, List.mem_append, List.map_cons, List.map_nil,
          List.mem_singleton, List.map_cons, List.mem_cons, or_assoc]
      · obtain hold | hnew := hentries entry hentry
        · obtain hold | hthis := List.mem_append.mp hold
          · exact .inl hold
          · rw [List.mem_singleton.mp hthis]
            exact .inr List.mem_cons_self
        · exact .inr (List.mem_cons_of_mem _ hnew)

/-- **A merge** of a list of distinct numbers with a page: in strict order, with the numbers of
both, and with events of both. -/
theorem mergeMonotonicEvents_spec (incoming : List EventSnapshot)
    (h : (current.map EventSnapshot.sequence).Nodup) :
    ((mergeMonotonicEvents current incoming).map EventSnapshot.sequence).Pairwise (· < ·) ∧
      (∀ n, n ∈ (mergeMonotonicEvents current incoming).map EventSnapshot.sequence ↔
        n ∈ current.map EventSnapshot.sequence ∨ n ∈ incoming.map EventSnapshot.sequence) ∧
      ∀ e ∈ mergeMonotonicEvents current incoming, e ∈ current ∨ e ∈ incoming := by
  unfold mergeMonotonicEvents
  rw [bySequence_eq h]
  obtain ⟨hkeyed, hkeys, hentries⟩ := addIncoming_spec incoming (keyed_map h)
  let merged := addIncoming (current.map fun e => (e.sequence, e)) incoming
  have hnumbers : (merged.map Prod.snd).map EventSnapshot.sequence = merged.map Prod.fst := by
    rw [List.map_map]
    exact List.map_congr_left fun entry hentry => (hkeyed.2 entry hentry).symm
  have hperm := List.perm_insertionSort
    (fun a b : EventSnapshot => a.sequence ≤ b.sequence) (merged.map Prod.snd)
  refine ⟨?_, fun n => ?_, fun e he => ?_⟩
  · rw [List.pairwise_map]
    refine Paging.sort_ordered (List.pairwise_map.mp (?_ : List.Nodup _))
    rw [hnumbers]
    exact hkeyed.1
  · rw [(hperm.map EventSnapshot.sequence).mem_iff, hnumbers, hkeys, List.map_map]
    rfl
  · obtain ⟨entry, hentry, rfl⟩ := List.mem_map.mp (hperm.mem_iff.mp he)
    refine (hentries entry hentry).imp_left fun hold => ?_
    obtain ⟨old, hcurrent, rfl⟩ := List.mem_map.mp hold
    exact hcurrent

/-- A page that goes on where the list is, or before, makes the list longer. -/
theorem mergeMonotonicEvents_numbers {k after n : Nat}
    (hcurrent : current.map EventSnapshot.sequence = List.range' 1 k)
    (hincoming : incoming.map EventSnapshot.sequence = List.range' (after + 1) n)
    (hafter : after ≤ k) :
    (mergeMonotonicEvents current incoming).map EventSnapshot.sequence =
      List.range' 1 (max k (after + n)) := by
  have hnodup : (current.map EventSnapshot.sequence).Nodup := by
    rw [hcurrent]
    exact List.nodup_range'
  obtain ⟨hsorted, hnumbers, -⟩ := mergeMonotonicEvents_spec incoming hnodup
  refine numbers_eq_range' hsorted fun m => ?_
  rw [hnumbers, hcurrent, hincoming, List.mem_range'_1, List.mem_range'_1]
  omega

theorem nextEventCursor_eq {k : Nat} (h : current.map EventSnapshot.sequence = List.range' 1 k) :
    nextEventCursor current = k := by
  have hfold : nextEventCursor current =
      (current.map EventSnapshot.sequence).foldl (fun greatest n => max greatest n) 0 := by
    rw [nextEventCursor, List.foldl_map]
  rw [hfold, h]
  clear h hfold
  induction k with
  | zero => rfl
  | succ k ih =>
    rw [List.range'_1_concat, List.foldl_append, ih]
    simp only [List.foldl_cons, List.foldl_nil]
    omega

end Merge

end CorpusKit.Web
