import CorpusKit.Persistence.S3Listing
import Mathlib.Data.Finset.Sort

/-! # The S3 listing is exact

Whatever pages the service cuts its listing into, `list_keys` puts together the first
keys of it, and it ends. -/

namespace CorpusKit.S3ObjectStore

open ObjectStore

variable {client : Client} {bucket start : String} {after : Option String}

/-! ## The service -/

/-- The service lists the keys of `left` from a token on, or from the start point: for
every page size it answers with some of the first of them, and while it says that the
page is truncated, its token leads to the others. There are finitely many pages. -/
inductive Lists (client : Client) (bucket start : String) (after : Option String) :
    Option String → List String → Prop
  | page {token : Option String} {left : List String} (response : Nat → ListResponse)
      (cut : Nat → Nat) (next : Nat → String)
      (answers : ∀ maxKeys, 1 ≤ maxKeys →
        client ⟨bucket, start, maxKeys, if token.isNone then after else none, token⟩ =
          .ok (response maxKeys))
      (contents : ∀ maxKeys, 1 ≤ maxKeys → (response maxKeys).keys = left.take (cut maxKeys))
      (last : ∀ maxKeys, 1 ≤ maxKeys → (response maxKeys).isTruncated = false →
        left.length ≤ cut maxKeys)
      (named : ∀ maxKeys, 1 ≤ maxKeys → (response maxKeys).isTruncated = true →
        next maxKeys ≠ "" ∧ (response maxKeys).nextContinuationToken = some (next maxKeys))
      (rest : ∀ maxKeys, 1 ≤ maxKeys → (response maxKeys).isTruncated = true →
        Lists client bucket start after (some (next maxKeys)) (left.drop (cut maxKeys))) :
      Lists client bucket start after token left

local instance key_le_trans : IsTrans String fun a b => a ≤ b := inferInstance

local instance key_le_antisymm : Std.Antisymm fun a b : String => a ≤ b := inferInstance

/-- The keys of a bucket under the prefix and beyond the cursor, in order. -/
def available (content : Finset String) (start : String) (after : Option String) : List String :=
  (content.filter fun key => startsWith key start ∧ ∀ cursor ∈ after, cursor < key).sort (· ≤ ·)

theorem available_sorted (content : Finset String) :
    (available content start after).Pairwise (· < ·) :=
  Finset.sortedLT_sort _ |>.pairwise

/-- A sorted list of these keys is the listing. -/
theorem available_eq {content : Finset String} {keys : List String}
    (hsorted : keys.Pairwise (· < ·))
    (hkeys : (content.filter fun key => startsWith key start ∧ ∀ cursor ∈ after, cursor < key) =
      keys.toFinset) : available content start after = keys := by
  have hperm : (available content start after).Perm keys := by
    refine (List.perm_ext_iff_of_nodup ((available_sorted content).imp ne_of_lt)
      (hsorted.imp ne_of_lt)).mpr fun key => ?_
    rw [available, Finset.mem_sort, hkeys, List.mem_toFinset]
  exact hperm.eq_of_pairwise (fun _ _ _ _ h h' => absurd h' (not_lt_of_gt h))
    (available_sorted content) hsorted

/-! ## The loop -/

theorem listPages_exact (limit : Nat) {token : Option String} {left : List String}
    (h : Lists client bucket start after token left) (keys : List String) :
    ∃ enough, ∀ fuel, enough ≤ fuel →
      listPages client bucket start limit after fuel token keys =
        some (.ok ((keys ++ left).take limit)) := by
  induction h generalizing keys with
  | @page token left response cut next answers contents last named rest ih =>
    by_cases hfull : keys.length < limit
    · have hmax : 1 ≤ min 1000 (limit - keys.length) := by omega
      have hanswer := answers _ hmax
      have hcontents := contents _ hmax
      cases htruncated : (response (min 1000 (limit - keys.length))).isTruncated with
      | false =>
        have hall := List.take_of_length_le (last _ hmax htruncated)
        refine ⟨1, fun fuel hfuel => ?_⟩
        obtain ⟨fuel, rfl⟩ := Nat.exists_eq_add_of_le' hfuel
        rw [listPages, if_pos hfull, nextRequest, hanswer]
        simp only [htruncated, hcontents, hall, Bool.false_eq_true, if_false]
      | true =>
        obtain ⟨hnonempty, htoken⟩ := named _ hmax htruncated
        obtain ⟨enough, hrest⟩ := ih _ hmax htruncated (keys ++ left.take (cut _))
        refine ⟨enough + 1, fun fuel hfuel => ?_⟩
        obtain ⟨fuel, rfl⟩ := Nat.exists_eq_add_of_le' (Nat.le_trans (Nat.le_add_left 1 _) hfuel)
        have hsplit := hrest fuel (Nat.le_of_succ_le_succ hfuel)
        rw [List.append_assoc, List.take_append_drop] at hsplit
        rw [listPages, if_pos hfull, nextRequest, hanswer]
        simp only [htruncated, if_true, htoken, Option.filter_some, hnonempty, ne_eq,
          not_false_eq_true, decide_true, hcontents]
        exact hsplit
    · refine ⟨1, fun fuel hfuel => ?_⟩
      obtain ⟨fuel, rfl⟩ := Nat.exists_eq_add_of_le' hfuel
      rw [listPages, if_neg hfull, List.take_append_of_le_length (by omega)]

/-- **The S3 listing.** It ends, with the first keys there are, each once and in order. -/
theorem list_keys_exact (content : Finset String) {limit : Nat}
    (hvalid : validateListing start limit after = .ok ())
    (h : Lists client bucket start after none (available content start after)) :
    ∃ keys, (∃ enough, ∀ fuel, enough ≤ fuel →
        listKeys client bucket start limit after fuel = some (.ok keys)) ∧
      keys = (available content start after).take limit ∧ keys.Pairwise (· < ·) ∧
      keys.length = min limit (content.filter fun key =>
        startsWith key start ∧ ∀ cursor ∈ after, cursor < key).card := by
  obtain ⟨enough, hpages⟩ := listPages_exact limit h []
  refine ⟨_, ⟨enough, fun fuel hfuel => ?_⟩, rfl, ?_, ?_⟩
  · rw [listKeys, hvalid]
    exact hpages fuel hfuel
  · exact (available_sorted content).sublist (List.take_sublist _ _)
  · rw [List.length_take, available, Finset.length_sort]

/-! ### An empty page and a short one -/

/-- Three keys under `a/`, two of them beyond the cursor `a/1`: the first page is empty
and the second one has one key. -/
def smallContent : Finset String := {"a/1", "a/2", "a/3", "b/1"}

def smallClient : Client := fun request =>
  match request.continuationToken with
  | none => .ok ⟨[], true, some "first"⟩
  | some "first" => .ok ⟨[some "a/2"], true, some "second"⟩
  | some _ => .ok ⟨[some "a/3", none], false, none⟩

theorem smallClient_lists : Lists smallClient "bucket" "a/" (some "a/1") none ["a/2", "a/3"] := by
  refine .page (fun _ => ⟨[], true, some "first"⟩) (fun _ => 0) (fun _ => "first")
    (fun _ _ => rfl) (fun _ _ => rfl) (fun _ _ h => nomatch h) (fun _ _ _ => ⟨by decide, rfl⟩)
    fun _ _ _ => ?_
  refine .page (fun _ => ⟨[some "a/2"], true, some "second"⟩) (fun _ => 1) (fun _ => "second")
    (fun _ _ => rfl) (fun _ _ => rfl) (fun _ _ h => nomatch h) (fun _ _ _ => ⟨by decide, rfl⟩)
    fun _ _ _ => ?_
  exact .page (fun _ => ⟨[some "a/3", none], false, none⟩) (fun _ => 2) (fun _ => "")
    (fun _ _ => rfl) (fun _ _ => rfl) (fun _ _ _ => by simp) (fun _ _ h => nomatch h)
    fun _ _ h => nomatch h

theorem smallContent_available : available smallContent "a/" (some "a/1") = ["a/2", "a/3"] :=
  available_eq (by decide +kernel) (by decide +kernel)

theorem list_keys_exact_small :
    ∃ keys, (∃ enough, ∀ fuel, enough ≤ fuel →
        listKeys smallClient "bucket" "a/" 10 (some "a/1") fuel = some (.ok keys)) ∧
      keys = (available smallContent "a/" (some "a/1")).take 10 ∧ keys.Pairwise (· < ·) ∧
      keys.length = min 10 (smallContent.filter fun key =>
        startsWith key "a/" ∧ ∀ cursor ∈ some "a/1", cursor < key).card :=
  list_keys_exact smallContent (by decide +kernel)
    (smallContent_available ▸ smallClient_lists)

end CorpusKit.S3ObjectStore
