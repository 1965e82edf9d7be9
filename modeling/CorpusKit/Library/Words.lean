import Mathlib.Algebra.GroupWithZero.Nat
import Mathlib.Data.List.Basic

/-! # Words of a text

A text is split at separators into its words, the non-empty runs without a
separator, and words are joined by one separator each. Splitting what was
joined gives the words back, so joining the words of a text is a normal form. -/

namespace Words

variable {α : Type} {p : α → Bool} {t w : List α} {ws : List (List α)} {c : α}

/-- A word of texts whose separators satisfy `p`. -/
structure IsWord (p : α → Bool) (w : List α) : Prop where
  ne : w ≠ []
  free : ∀ c ∈ w, p c = false

def words (p : α → Bool) (t : List α) : List (List α) :=
  (t.splitOnP p).filter fun w => !w.isEmpty

def join (c : α) : List (List α) → List α
  | [] => []
  | [w] => w
  | w :: v :: ws => w ++ c :: join c (v :: ws)

/-- The first piece of a split starts the text. -/
theorem splitOnP_first (p : α → Bool) (t : List α) :
    ∃ w ws, t.splitOnP p = w :: ws ∧ w <+: t := by
  induction t with
  | nil => exact ⟨[], [], List.splitOnP_nil, List.nil_prefix⟩
  | cons x t ih =>
    obtain ⟨w, ws, hsplit, hfront⟩ := ih
    rw [List.splitOnP_cons_eq_if_modifyHead]
    split
    · exact ⟨[], _, rfl, List.nil_prefix⟩
    · exact ⟨x :: w, ws, by rw [hsplit, List.modifyHead_cons],
        List.prefix_cons_inj x |>.mpr hfront⟩

/-- A piece of a split lies in the text and has no separator. -/
theorem mem_splitOnP (h : w ∈ t.splitOnP p) : w <:+: t ∧ ∀ c ∈ w, p c = false := by
  induction t generalizing w with
  | nil =>
    rw [List.splitOnP_nil, List.mem_singleton] at h
    subst h
    exact ⟨List.nil_infix, nofun⟩
  | cons x t ih =>
    rw [List.splitOnP_cons_eq_if_modifyHead] at h
    split at h
    · obtain rfl | h := List.mem_cons.mp h
      · exact ⟨List.nil_infix, nofun⟩
      · exact ⟨(ih h).1.trans (List.infix_cons (List.infix_refl t)), (ih h).2⟩
    · next hx =>
      obtain ⟨v, vs, hsplit, hfront⟩ := splitOnP_first p t
      rw [hsplit, List.modifyHead_cons] at h
      obtain rfl | h := List.mem_cons.mp h
      · refine ⟨((List.prefix_cons_inj x).mpr hfront).isInfix, fun c hc => ?_⟩
        obtain rfl | hc := List.mem_cons.mp hc
        · simpa using hx
        · exact (ih (hsplit ▸ List.mem_cons_self)).2 c hc
      · have hrest := ih (hsplit ▸ List.mem_cons_of_mem _ h)
        exact ⟨hrest.1.trans (List.infix_cons (List.infix_refl t)), hrest.2⟩

theorem mem_words (h : w ∈ words p t) : IsWord p w ∧ w <:+: t := by
  obtain ⟨hw, hne⟩ := List.mem_filter.mp h
  obtain ⟨hinside, hfree⟩ := mem_splitOnP hw
  exact ⟨⟨by simpa using hne, hfree⟩, hinside⟩

theorem words_append_sep (hc : p c = true) (t u : List α) :
    words p (t ++ c :: u) = words p t ++ words p u := by
  unfold words
  rw [List.splitOnP_append_cons t u hc, List.filter_append]

theorem words_word (h : IsWord p w) : words p w = [w] := by
  unfold words
  rw [List.splitOnP_eq_singleton fun c hc => h.free c hc]
  simp [h.ne]

theorem words_join (hc : p c = true) (h : ∀ w ∈ ws, IsWord p w) : words p (join c ws) = ws := by
  induction ws with
  | nil => simp [join, words]
  | cons w ws ih =>
    have hrest := ih fun v hv => h v (List.mem_cons_of_mem _ hv)
    have hw := words_word (h w List.mem_cons_self)
    cases ws with
    | nil => exact hw
    | cons v ws =>
      unfold join
      rw [words_append_sep hc, hw, hrest, List.singleton_append]

/-- Nothing but the characters of the words and the separator. -/
theorem mem_join {a : α} (h : a ∈ join c ws) : a = c ∨ ∃ w ∈ ws, a ∈ w := by
  induction ws with
  | nil => cases h
  | cons w ws ih =>
    cases ws with
    | nil => exact .inr ⟨w, List.mem_cons_self, h⟩
    | cons v ws =>
      unfold join at h
      rw [List.mem_append, List.mem_cons] at h
      obtain h | rfl | h := h
      · exact .inr ⟨w, List.mem_cons_self, h⟩
      · exact .inl rfl
      · obtain h | ⟨u, hu, ha⟩ := ih h
        · exact .inl h
        · exact .inr ⟨u, List.mem_cons_of_mem _ hu, ha⟩

/-- Every character that is no separator is in a piece. -/
theorem mem_of_splitOnP (h : c ∈ t) (hc : p c = false) : ∃ w ∈ t.splitOnP p, c ∈ w := by
  induction t with
  | nil => cases h
  | cons x t ih =>
    rw [List.splitOnP_cons_eq_if_modifyHead]
    split
    · next hx =>
      obtain rfl | h := List.mem_cons.mp h
      · rw [hc] at hx
        cases hx
      · obtain ⟨w, hw, hmem⟩ := ih h
        exact ⟨w, List.mem_cons_of_mem _ hw, hmem⟩
    · obtain ⟨v, vs, hsplit, -⟩ := splitOnP_first p t
      rw [hsplit, List.modifyHead_cons]
      obtain rfl | h := List.mem_cons.mp h
      · exact ⟨c :: v, List.mem_cons_self, List.mem_cons_self⟩
      · obtain ⟨w, hw, hmem⟩ := ih h
        rw [hsplit] at hw
        obtain rfl | hw := List.mem_cons.mp hw
        · exact ⟨x :: w, List.mem_cons_self, List.mem_cons_of_mem _ hmem⟩
        · exact ⟨w, List.mem_cons_of_mem _ hw, hmem⟩

/-- The room a list of words takes with one separator after each. -/
def room (ws : List (List α)) : Nat := (ws.map fun w => w.length + 1).sum

theorem room_splitOnP (p : α → Bool) (t : List α) : room (t.splitOnP p) = t.length + 1 := by
  induction t with
  | nil => rfl
  | cons x t ih =>
    rw [List.splitOnP_cons_eq_if_modifyHead]
    split
    · simp only [room, List.map_cons, List.sum_cons, List.length_nil, List.length_cons] at ih ⊢
      omega
    · obtain ⟨v, vs, hsplit, -⟩ := splitOnP_first p t
      rw [hsplit] at ih ⊢
      simp only [room, List.modifyHead_cons, List.map_cons, List.sum_cons, List.length_cons] at ih ⊢
      omega

theorem length_join_le (c : α) (ws : List (List α)) : (join c ws).length ≤ room ws - 1 := by
  induction ws with
  | nil => exact Nat.le_refl 0
  | cons w ws ih =>
    cases ws with
    | nil => simp [join, room]
    | cons v ws =>
      simp only [join, room, List.length_append, List.length_cons, List.map_cons, List.sum_cons]
        at ih ⊢
      omega

theorem room_filter_le (q : List α → Bool) (ws : List (List α)) : room (ws.filter q) ≤ room ws := by
  induction ws with
  | nil => exact Nat.le_refl _
  | cons w ws ih =>
    rw [List.filter_cons]
    split <;> simp only [room, List.map_cons, List.sum_cons] at ih ⊢ <;> omega

/-- Joining the words of a text makes it no longer. -/
theorem length_join_words_le (c : α) : (join c (words p t)).length ≤ t.length := by
  have hfilter : room (words p t) ≤ room (t.splitOnP p) := room_filter_le _ _
  have hjoin := length_join_le c (words p t)
  rw [room_splitOnP] at hfilter
  omega

end Words
