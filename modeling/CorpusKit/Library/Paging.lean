import Mathlib.Data.List.Sort
import Mathlib.Order.MinMax

/-! # Paging through ordered streams

A stream is a list in strictly increasing order of a key. A page is the first
`limit` entries beyond a cursor. Two streams are paged together by cutting both
pages at the lower of their full-page boundaries; what is cut comes again on a
later page. The rules below say that a page and the rest beyond its boundary
are exactly what was beyond the cursor, and that every cut makes progress. -/

namespace Paging

variable {α γ β : Type} [LinearOrder β] {f : α → β} {g : γ → β}

/-- In strictly increasing order of the key. -/
def Ordered (f : α → β) (l : List α) : Prop := l.Pairwise fun a b => f a < f b

/-- The entries beyond a cursor. -/
def beyond (f : α → β) (cursor : Option β) (l : List α) : List α :=
  l.filter fun a => cursor.all fun c => decide (c < f a)

/-- The entries up to a boundary; all of them when there is none. -/
def upTo (f : α → β) (boundary : Option β) (l : List α) : List α :=
  l.filter fun a => boundary.all fun b => decide (f a ≤ b)

/-- The key of the last entry of a full page. -/
def fullBoundary (f : α → β) (limit : Nat) (page : List α) : Option β :=
  if page.length = limit then page.getLast?.map f else none

def lower : Option β → Option β → Option β
  | some a, some b => some (min a b)
  | some a, none => some a
  | none, b => b

theorem Ordered.filter {l : List α} (h : Ordered f l) (p : α → Bool) : Ordered f (l.filter p) :=
  List.Pairwise.filter p h

/-- What follows a prefix in order has the larger keys. -/
theorem Ordered.lt_of_append {l l' : List α} (h : Ordered f (l ++ l')) {a b : α} (ha : a ∈ l)
    (hb : b ∈ l') : f a < f b :=
  (List.pairwise_append.mp h).2.2 a ha b hb

theorem passes_iff {cursor : Option β} {x : β} :
    (cursor.all fun c => decide (c < x)) = true ↔ ∀ c ∈ cursor, c < x := by
  cases cursor <;> simp

theorem mem_beyond {cursor : Option β} {l : List α} {a : α} :
    a ∈ beyond f cursor l ↔ a ∈ l ∧ ∀ c ∈ cursor, c < f a := by
  unfold beyond
  cases cursor <;> simp

theorem beyond_cons_pos {cursor : Option β} {a : α} {l : List α} (h : ∀ c ∈ cursor, c < f a) :
    beyond f cursor (a :: l) = a :: beyond f cursor l :=
  List.filter_cons_of_pos (p := fun a => cursor.all fun c => decide (c < f a)) (passes_iff.mpr h)

theorem beyond_cons_neg {cursor : Option β} {a : α} {l : List α} (h : ¬ ∀ c ∈ cursor, c < f a) :
    beyond f cursor (a :: l) = beyond f cursor l :=
  List.filter_cons_of_neg (p := fun a => cursor.all fun c => decide (c < f a))
    (mt passes_iff.mp h)

theorem mem_upTo {boundary : Option β} {l : List α} {a : α} :
    a ∈ upTo f boundary l ↔ a ∈ l ∧ ∀ b ∈ boundary, f a ≤ b := by
  unfold upTo
  cases boundary <;> simp

theorem upTo_none (l : List α) : upTo f (none : Option β) l = l := by
  unfold upTo
  simp

theorem upTo_eq_nil {b : β} {l : List α} (h : ∀ a ∈ l, b < f a) : upTo f (some b) l = [] := by
  unfold upTo
  rw [List.filter_eq_nil_iff]
  intro a ha
  have := h a ha
  simpa using this

/-- What is left for the pages after a boundary; nothing once there is none. -/
def rest (f : α → β) : Option β → List α → List α
  | none, _ => []
  | some b, l => beyond f (some b) l

/-- A boundary that leaves nothing of a stream out of sight: a full page of it
reaches the boundary. -/
def Reached (f : α → β) (limit : Nat) (page : List α) (next : Option β) : Prop :=
  ∀ x ∈ fullBoundary f limit page, ∃ b ∈ next, b ≤ x

theorem reached_lower_left {limit : Nat} {page : List α} (other : Option β) :
    Reached f limit page (lower (fullBoundary f limit page) other) := by
  intro x hx
  rw [hx]
  cases other with
  | none => exact ⟨x, rfl, le_refl x⟩
  | some y => exact ⟨min x y, rfl, min_le_left x y⟩

theorem reached_lower_right {limit : Nat} {page : List α} (other : Option β) :
    Reached f limit page (lower other (fullBoundary f limit page)) := by
  intro x hx
  rw [hx]
  cases other with
  | none => exact ⟨x, rfl, le_refl x⟩
  | some y => exact ⟨min y x, rfl, min_le_right y x⟩

theorem lower_mem {a b : Option β} {x : β} (h : x ∈ lower a b) : x ∈ a ∨ x ∈ b := by
  cases a with
  | none => exact .inr h
  | some y =>
    cases b with
    | none => exact .inl h
    | some z =>
      have hx : min y z = x := Option.some.inj h
      rcases min_choice y z with hy | hz
      · exact .inl (by rw [← hx, hy]; rfl)
      · exact .inr (by rw [← hx, hz]; rfl)

omit [LinearOrder β] in
theorem fullBoundary_mem {limit : Nat} {page : List α} {x : β}
    (h : x ∈ fullBoundary f limit page) : ∃ a ∈ page, f a = x := by
  unfold fullBoundary at h
  split at h
  · obtain ⟨a, ha, hx⟩ := Option.map_eq_some_iff.mp h
    exact ⟨a, List.mem_of_getLast? ha, hx⟩
  · cases h

/-- A page cut at a boundary it reaches holds everything up to that boundary. -/
theorem upTo_take {limit : Nat} (hlimit : 0 < limit) {l : List α} (h : Ordered f l)
    {next : Option β} (hnext : Reached f limit (l.take limit) next) :
    upTo f next (l.take limit) = upTo f next l := by
  by_cases hlen : (l.take limit).length = limit
  · -- a full page: whatever it leaves out lies beyond its last entry
    obtain ⟨x, hlast⟩ : ∃ x, (l.take limit).getLast? = some x := by
      cases hlast : (l.take limit).getLast? with
      | some x => exact ⟨x, rfl⟩
      | none =>
        have hnil : l.take limit = [] := List.getLast?_eq_none_iff.mp hlast
        rw [hnil, List.length_nil] at hlen
        omega
    obtain ⟨b, rfl, hb⟩ := hnext (f x) (by simp [fullBoundary, hlen, hlast])
    have hord : Ordered f (l.take limit ++ l.drop limit) := by
      rw [List.take_append_drop]; exact h
    have hnil : upTo f (some b) (l.drop limit) = [] :=
      upTo_eq_nil fun a ha =>
        lt_of_le_of_lt hb (hord.lt_of_append (List.mem_of_getLast? hlast) ha)
    have hsplit : upTo f (some b) l =
        upTo f (some b) (l.take limit) ++ upTo f (some b) (l.drop limit) := by
      unfold upTo
      rw [← List.filter_append, List.take_append_drop]
    rw [hsplit, hnil, List.append_nil]
  · have hshort : l.take limit = l := by
      refine List.take_of_length_le ?_
      rw [List.length_take] at hlen
      omega
    rw [hshort]

/-- An ordered stream beyond a cursor splits at any later boundary. -/
theorem beyond_split {l : List α} (h : Ordered f l) {cursor : Option β} {b : β}
    (hb : ∀ c ∈ cursor, c < b) :
    upTo f (some b) (beyond f cursor l) ++ beyond f (some b) l = beyond f cursor l := by
  induction l with
  | nil => rfl
  | cons a l ih =>
    have htail := ih (List.pairwise_cons.mp h).2
    by_cases ha : f a ≤ b
    · have hout : beyond f (some b) (a :: l) = beyond f (some b) l :=
        beyond_cons_neg fun h => absurd (h b rfl) (not_lt.mpr ha)
      rw [hout]
      by_cases hc : ∀ c ∈ cursor, c < f a
      · have hin : beyond f cursor (a :: l) = a :: beyond f cursor l := beyond_cons_pos hc
        have hup : upTo f (some b) (a :: beyond f cursor l) =
            a :: upTo f (some b) (beyond f cursor l) := by
          unfold upTo
          rw [List.filter_cons_of_pos (by simpa using ha)]
        rw [hin, hup, List.cons_append, htail]
      · have hin : beyond f cursor (a :: l) = beyond f cursor l := beyond_cons_neg hc
        rw [hin, htail]
    · -- the head lies beyond the boundary, and so does everything after it
      have hbeyond : ∀ x ∈ a :: l, b < f x := by
        intro x hx
        rcases List.mem_cons.mp hx with rfl | hx
        · exact not_le.mp ha
        · exact lt_trans (not_le.mp ha) ((List.pairwise_cons.mp h).1 x hx)
      have hfull : beyond f (some b) (a :: l) = a :: l :=
        List.filter_eq_self.mpr fun x hx => by simpa using hbeyond x hx
      have hall : beyond f cursor (a :: l) = a :: l :=
        List.filter_eq_self.mpr fun x hx => by
          cases cursor with
          | none => rfl
          | some c => simpa using lt_trans (hb c rfl) (hbeyond x hx)
      rw [hfull, hall, upTo_eq_nil hbeyond, List.nil_append]

/-- **A page and the rest.** The page cut at the next boundary, followed by what
lies beyond that boundary, is what lay beyond the cursor. -/
theorem page_append_rest {limit : Nat} (hlimit : 0 < limit) {l : List α} (h : Ordered f l)
    {cursor next : Option β} (hlater : ∀ c ∈ cursor, ∀ b ∈ next, c < b)
    (hnext : Reached f limit ((beyond f cursor l).take limit) next) :
    upTo f next ((beyond f cursor l).take limit) ++ rest f next l = beyond f cursor l := by
  have hord : Ordered f (beyond f cursor l) := h.filter _
  rw [upTo_take hlimit hord hnext]
  cases next with
  | none => rw [upTo_none, rest, List.append_nil]
  | some b => exact beyond_split h fun c hc => hlater c hc b rfl

/-! ## Two streams -/

/-- The next cursor of a joint page: the lower full-page boundary. -/
def nextCursor (f : α → β) (g : γ → β) (limit : Nat) (xs : List α) (ys : List γ) : Option β :=
  lower (fullBoundary f limit xs) (fullBoundary g limit ys)

/-- The next cursor is the key of an entry of one of the two pages. -/
theorem nextCursor_mem {limit : Nat} {xs : List α} {ys : List γ} {b : β}
    (h : b ∈ nextCursor f g limit xs ys) : (∃ x ∈ xs, f x = b) ∨ ∃ y ∈ ys, g y = b := by
  rcases lower_mem h with hx | hy
  · exact .inl (fullBoundary_mem hx)
  · exact .inr (fullBoundary_mem hy)

/-- The next cursor lies beyond the cursor. -/
theorem lt_nextCursor {limit : Nat} {cursor : Option β} {xs : List α} {ys : List γ} {b : β}
    (h : b ∈ nextCursor f g limit ((beyond f cursor xs).take limit)
      ((beyond g cursor ys).take limit)) : ∀ c ∈ cursor, c < b := by
  intro c hc
  rcases nextCursor_mem h with ⟨x, hx, rfl⟩ | ⟨y, hy, rfl⟩
  · exact (mem_beyond.mp (List.mem_of_mem_take hx)).2 c hc
  · exact (mem_beyond.mp (List.mem_of_mem_take hy)).2 c hc

theorem beyond_later_le {cursor : Option β} {b : β} (h : ∀ c ∈ cursor, c < b) (l : List α) :
    (beyond f (some b) l).length ≤ (beyond f cursor l).length := by
  refine List.Sublist.length_le (List.monotone_filter_right l fun a ha => ?_)
  cases cursor with
  | none => rfl
  | some c => simpa using lt_trans (h c rfl) (by simpa using ha)

theorem beyond_later_lt {cursor : Option β} {b : β} (h : ∀ c ∈ cursor, c < b) {l : List α}
    {a : α} (ha : a ∈ l) (hab : f a = b) :
    (beyond f (some b) l).length < (beyond f cursor l).length := by
  induction l with
  | nil => cases ha
  | cons x l ih =>
    have hle := beyond_later_le (f := f) h l
    by_cases hx : f x = b
    · have hin : beyond f cursor (x :: l) = x :: beyond f cursor l :=
        beyond_cons_pos fun c hc => hx ▸ h c hc
      have hout : beyond f (some b) (x :: l) = beyond f (some b) l :=
        beyond_cons_neg fun hlt => absurd (hlt b rfl) (hx ▸ lt_irrefl _)
      rw [hin, hout, List.length_cons]
      omega
    · have hmem : a ∈ l := by
        rcases List.mem_cons.mp ha with rfl | hmem
        · exact absurd hab hx
        · exact hmem
      have hlt := ih hmem
      by_cases hbx : b < f x
      · have hin : beyond f cursor (x :: l) = x :: beyond f cursor l :=
          beyond_cons_pos fun c hc => lt_trans (h c hc) hbx
        have hout : beyond f (some b) (x :: l) = x :: beyond f (some b) l :=
          beyond_cons_pos fun c hc => (Option.mem_some.mp hc) ▸ hbx
        rw [hin, hout, List.length_cons, List.length_cons]
        omega
      · have hout : beyond f (some b) (x :: l) = beyond f (some b) l :=
          beyond_cons_neg fun hlt => hbx (hlt b rfl)
        have hgrow : (beyond f cursor l).length ≤ (beyond f cursor (x :: l)).length := by
          unfold beyond
          exact List.Sublist.length_le (List.Sublist.filter _ (List.sublist_cons_self x l))
        rw [hout]
        omega

/-- What is left of both streams beyond a cursor. -/
def remaining (f : α → β) (g : γ → β) (cursor : Option β) (xs : List α) (ys : List γ) : Nat :=
  (beyond f cursor xs).length + (beyond g cursor ys).length

/-- **Progress.** Every further page leaves less of the two streams. -/
theorem remaining_lt {limit : Nat} {cursor : Option β} {xs : List α} {ys : List γ} {b : β}
    (h : b ∈ nextCursor f g limit ((beyond f cursor xs).take limit)
      ((beyond g cursor ys).take limit)) :
    remaining f g (some b) xs ys < remaining f g cursor xs ys := by
  have hlater := lt_nextCursor h
  have hxs := beyond_later_le (f := f) hlater xs
  have hys := beyond_later_le (f := g) hlater ys
  unfold remaining
  rcases nextCursor_mem h with ⟨x, hx, hxb⟩ | ⟨y, hy, hyb⟩
  · have := beyond_later_lt hlater (mem_beyond.mp (List.mem_of_mem_take hx)).1 hxb
    omega
  · have := beyond_later_lt hlater (mem_beyond.mp (List.mem_of_mem_take hy)).1 hyb
    omega

/-! ## Sorting a stream -/

theorem sort_ordered {l : List α} (h : l.Pairwise fun a b => f a ≠ f b) :
    Ordered f (l.insertionSort fun a b => f a ≤ f b) := by
  have : Std.Total fun a b : α => f a ≤ f b := ⟨fun a b => le_total (f a) (f b)⟩
  have : IsTrans α fun a b => f a ≤ f b := ⟨fun a b c => le_trans⟩
  have hsorted := List.pairwise_insertionSort (fun a b => f a ≤ f b) l
  have hne : (l.insertionSort fun a b => f a ≤ f b).Pairwise fun a b => f a ≠ f b :=
    (List.Perm.pairwise_iff (fun h => Ne.symm h) (List.perm_insertionSort _ l)).mpr h
  exact (hsorted.and hne).imp fun hab => lt_of_le_of_ne hab.1 hab.2

/-- Entries of an ordered stream with the same key are the same. -/
theorem Ordered.injective {l : List α} (h : Ordered f l) {a b : α} (ha : a ∈ l) (hb : b ∈ l)
    (hab : f a = f b) : a = b :=
  List.inj_on_of_nodup_map (List.pairwise_map.mpr (h.imp fun hlt => ne_of_lt hlt)) ha hb hab

/-- Sorting entries without repetition gives the ordered stream of the same entries. -/
theorem sort_eq {l m : List α} (hm : Ordered f m) (hl : l.Nodup) (h : ∀ a, a ∈ l ↔ a ∈ m) :
    l.insertionSort (fun a b => f a ≤ f b) = m := by
  have hkeys : l.Pairwise fun a b => f a ≠ f b :=
    hl.imp_of_mem fun ha hb hne hab => hne (hm.injective ((h _).mp ha) ((h _).mp hb) hab)
  have hnodup : m.Nodup := hm.imp fun hlt hab => (ne_of_lt hlt) (congrArg f hab)
  refine List.Perm.eq_of_pairwise (fun a b _ _ hab hba => absurd hba (lt_asymm hab))
    (sort_ordered hkeys) hm ?_
  exact (List.perm_insertionSort _ l).trans ((List.perm_ext_iff_of_nodup hl hnodup).mpr h)

/-- Sorting the entries that match is matching the sorted entries. -/
theorem sort_filter {l : List α} (h : l.Pairwise fun a b => f a ≠ f b) (p : α → Bool) :
    (l.filter p).insertionSort (fun a b => f a ≤ f b) =
      (l.insertionSort fun a b => f a ≤ f b).filter p := by
  have hleft : Ordered f ((l.filter p).insertionSort fun a b => f a ≤ f b) :=
    sort_ordered (List.Pairwise.filter p h)
  have hright := (sort_ordered h).filter p
  refine List.Perm.eq_of_pairwise (fun a b _ _ hab hba => absurd hba (lt_asymm hab)) hleft hright ?_
  exact (List.perm_insertionSort _ _).trans ((List.perm_insertionSort _ l).filter p).symm

end Paging
