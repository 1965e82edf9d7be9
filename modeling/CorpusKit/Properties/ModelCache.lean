import CorpusKit.Adapters.ModelCache
import Mathlib.Data.List.Perm.Basic

/-! # The cache of local models is an LRU cache

After any requests the cache holds the keys used last. What the loader has made is
split between the cache and what has been evicted, and exactly the latter has been
closed. -/

namespace CorpusKit.CachedLocalModelLoader

variable (cache : CachedLocalModelLoader)

/-! ## Requests -/

/-- What has happened: the answers in their order, and what the loader has made. -/
structure Trace where
  state : State
  answers : List (ModelRequest × Except Error LoadedModelBundle)
  made : List (ModelKey × LoadedModelBundle)

/-- What one request makes. -/
def made (s : State) (request : ModelRequest) : List (ModelKey × LoadedModelBundle) :=
  match s.entries.get? request.key, cache.loads s.calls request with
  | none, .ok loaded => [(request.key, loaded)]
  | _, _ => []

def request (t : Trace) (r : ModelRequest) : Trace where
  state := (cache.load t.state r).2
  answers := t.answers ++ [(r, (cache.load t.state r).1)]
  made := t.made ++ cache.made t.state r

def run (requests : List ModelRequest) : Trace := requests.foldl cache.request ⟨initial, [], []⟩

/-- The keys of the requests that have been answered, in their order. -/
def Trace.used (t : Trace) : List ModelKey :=
  t.answers.filterMap fun a => a.2.toOption.map fun _ => a.1.key

/-- Each call of the loader makes another model, as `from_pretrained` does. -/
def Fresh : Prop :=
  ∀ {m n r r' b b'}, cache.loads m r = .ok b → cache.loads n r' = .ok b' →
    b.model = b'.model → m = n

/-! ## The invariant -/

structure Lru (t : Trace) : Prop where
  recent : t.state.entries.keys = t.used.dedup.rtake cache.maxEntries
  made : ∀ e ∈ t.made, ∃ n < t.state.calls, ∃ r, cache.loads n r = .ok e.2
  distinct : (t.made.map fun e => e.2.model).Nodup
  latest : ∀ e ∈ t.state.entries.entries, (t.made.filter (·.1 = e.1)).getLast? = some e
  split : ∃ gone, List.Perm (gone ++ t.state.entries.entries) t.made ∧
    t.state.closed = (gone.map fun e => e.2.model).filter cache.closes
  answered : ∀ {r b}, t.answers.getLast? = some (r, .ok b) →
    t.state.entries.get? r.key = some b

variable {cache} {t : Trace} {r : ModelRequest}

theorem foldl_cleanup (closed : List ObjectId) (bundles : List LoadedModelBundle) :
    bundles.foldl cache.cleanup closed =
      closed ++ (bundles.map LoadedModelBundle.model).filter cache.closes := by
  induction bundles generalizing closed with
  | nil => simp
  | cons bundle bundles ih =>
    rw [List.foldl_cons, ih, cleanup, List.map_cons, List.filter_cons]
    split <;> simp

theorem request_hit {cached : LoadedModelBundle} (hget : t.state.entries.get? r.key = some cached) :
    cache.request t r =
      { t with
        state := { t.state with entries := t.state.entries.put r.key cached }
        answers := t.answers ++ [(r, .ok cached)] } := by
  simp only [request, load, CachedLocalModelLoader.made, hget, List.append_nil]

theorem request_failed {e : Error} (hget : t.state.entries.get? r.key = none)
    (hloads : cache.loads t.state.calls r = .error e) :
    cache.request t r =
      { t with
        state := { t.state with calls := t.state.calls + 1 }
        answers := t.answers ++ [(r, .error e)] } := by
  simp only [request, load, CachedLocalModelLoader.made, hget, hloads, List.append_nil]

theorem request_made {loaded : LoadedModelBundle} (hget : t.state.entries.get? r.key = none)
    (hloads : cache.loads t.state.calls r = .ok loaded) :
    cache.request t r =
      { state :=
          { entries := ((t.state.entries.put r.key loaded).trim cache.maxEntries).1
            calls := t.state.calls + 1
            closed := t.state.closed ++
              (((t.state.entries.put r.key loaded).trim cache.maxEntries).2.map
                fun e => e.2.model).filter cache.closes }
        answers := t.answers ++ [(r, .ok loaded)]
        made := t.made ++ [(r.key, loaded)] } := by
  simp only [request, load, CachedLocalModelLoader.made, hget, hloads, foldl_cleanup, List.map_map]
  rfl

theorem Trace.used_concat (answers : List (ModelRequest × Except Error LoadedModelBundle))
    (s : State) (m : List (ModelKey × LoadedModelBundle)) (b : LoadedModelBundle) :
    Trace.used ⟨s, answers ++ [(r, .ok b)], m⟩ = Trace.used ⟨s, answers, m⟩ ++ [r.key] := by
  simp [Trace.used, Except.toOption]

/-- The keys after a use, whether the entry was there or is new. -/
theorem Lru.use (h : cache.Lru t) (key : ModelKey) :
    (t.state.entries.keys.erase key ++ [key]).rtake cache.maxEntries =
      (t.used ++ [key]).dedup.rtake cache.maxEntries := by
  rw [h.recent, Recency.rtake_use (List.nodup_dedup _), Recency.dedup_concat]

theorem Lru.initial : cache.Lru ⟨CachedLocalModelLoader.initial, [], []⟩ where
  recent := by
    simp [CachedLocalModelLoader.initial, OrderedDict.keys, OrderedDict.empty, Trace.used]
  made := nofun
  distinct := List.nodup_nil
  latest := nofun
  split := ⟨[], .refl _, rfl⟩
  answered := nofun

theorem Lru.hit (h : cache.Lru t) {cached : LoadedModelBundle}
    (hget : t.state.entries.get? r.key = some cached) : cache.Lru (cache.request t r) := by
  rw [request_hit hget]
  have hperm := OrderedDict.put_perm hget
  have hkey : r.key ∈ t.state.entries.keys :=
    List.mem_map.mpr ⟨_, OrderedDict.get?_eq_some.mp hget, rfl⟩
  refine ⟨?_, h.made, h.distinct, fun e he => h.latest e (hperm.subset he), ?_, ?_⟩
  · have hlength : (t.state.entries.keys.erase r.key ++ [r.key]).length ≤ cache.maxEntries := by
      have hkept : t.state.entries.keys.length ≤ cache.maxEntries := by
        rw [h.recent, List.rtake, List.length_drop]
        omega
      rw [List.length_append, List.length_erase_of_mem hkey, List.length_singleton]
      have := List.length_pos_of_mem hkey
      omega
    rw [OrderedDict.keys_put, ← Recency.rtake_of_length_le hlength, h.use, Trace.used_concat]
    rfl
  · obtain ⟨gone, hsplit, hclosed⟩ := h.split
    exact ⟨gone, (hperm.append_left gone).trans hsplit, hclosed⟩
  · intro r' b hlast
    simp only [List.getLast?_concat, Option.some.injEq, Prod.mk.injEq, Except.ok.injEq] at hlast
    obtain ⟨rfl, rfl⟩ := hlast
    exact OrderedDict.get?_put _ _ _

theorem Lru.failed (h : cache.Lru t) {e : Error} (hget : t.state.entries.get? r.key = none)
    (hloads : cache.loads t.state.calls r = .error e) : cache.Lru (cache.request t r) := by
  rw [request_failed hget hloads]
  refine ⟨?_, fun e he => ?_, h.distinct, h.latest, h.split, ?_⟩
  · rw [h.recent]
    simp [Trace.used, Except.toOption]
  · obtain ⟨n, hn, hmade⟩ := h.made e he
    exact ⟨n, Nat.lt_succ_of_lt hn, hmade⟩
  · intro r' b hlast
    simp at hlast

theorem Lru.new (h : cache.Lru t) (hfresh : cache.Fresh) {loaded : LoadedModelBundle}
    (hget : t.state.entries.get? r.key = none)
    (hloads : cache.loads t.state.calls r = .ok loaded) : cache.Lru (cache.request t r) := by
  rw [request_made hget hloads]
  have hentries := OrderedDict.put_new (OrderedDict.get?_eq_none.mp hget) loaded
  have htrim := OrderedDict.trim_append (t.state.entries.put r.key loaded) cache.maxEntries
  have hkept : ∀ e ∈ ((t.state.entries.put r.key loaded).trim cache.maxEntries).1.entries,
      e ∈ t.state.entries.entries ∨ e = (r.key, loaded) := by
    intro e he
    have hmem : e ∈ (t.state.entries.put r.key loaded).entries :=
      htrim ▸ List.mem_append_right _ he
    rw [hentries, List.mem_append, List.mem_singleton] at hmem
    exact hmem
  have hrecent : ((t.state.entries.put r.key loaded).trim cache.maxEntries).1.keys =
      (t.used ++ [r.key]).dedup.rtake cache.maxEntries := by
    rw [OrderedDict.keys_trim, OrderedDict.keys_put, h.use]
  refine ⟨?_, fun e he => ?_, ?_, fun e he => ?_, ?_, ?_⟩
  · rw [Trace.used_concat]
    exact hrecent
  · obtain hold | hnew := List.mem_append.mp he
    · obtain ⟨n, hn, hmade⟩ := h.made e hold
      exact ⟨n, Nat.lt_succ_of_lt hn, hmade⟩
    · obtain rfl := List.mem_singleton.mp hnew
      exact ⟨_, Nat.lt_succ_self _, r, hloads⟩
  · rw [List.map_append, List.nodup_append]
    refine ⟨h.distinct, List.nodup_singleton _, fun a ha b hb hab => ?_⟩
    obtain ⟨e, he, rfl⟩ := List.mem_map.mp ha
    obtain rfl := List.mem_singleton.mp hb
    obtain ⟨n, hn, r', hmade⟩ := h.made e he
    exact absurd (hfresh hmade hloads hab) (Nat.ne_of_lt hn)
  · rw [List.filter_append]
    obtain hold | rfl := hkept e he
    · have hne : r.key ≠ e.1 := by
        rintro heq
        exact OrderedDict.get?_eq_none.mp hget (heq ▸ List.mem_map_of_mem hold)
      rw [List.filter_cons_of_neg (by simpa using hne), List.filter_nil, List.append_nil]
      exact h.latest e hold
    · rw [List.filter_cons_of_pos (by simp), List.filter_nil, List.getLast?_concat]
  · obtain ⟨gone, hsplit, hclosed⟩ := h.split
    refine ⟨gone ++ ((t.state.entries.put r.key loaded).trim cache.maxEntries).2, ?_, ?_⟩
    · rw [List.append_assoc, htrim, hentries, ← List.append_assoc]
      exact hsplit.append_right _
    · rw [List.map_append, List.filter_append, ← hclosed]
  · intro r' b hlast
    simp only [List.getLast?_concat, Option.some.injEq, Prod.mk.injEq, Except.ok.injEq] at hlast
    obtain ⟨rfl, rfl⟩ := hlast
    exact OrderedDict.get?_trim_put _ _ _ cache.bounded.1

theorem Lru.request (h : cache.Lru t) (hfresh : cache.Fresh) (r : ModelRequest) :
    cache.Lru (cache.request t r) := by
  cases hget : t.state.entries.get? r.key with
  | some cached => exact h.hit hget
  | none =>
    cases hloads : cache.loads t.state.calls r with
    | error e => exact h.failed hget hloads
    | ok loaded => exact h.new hfresh hget hloads

theorem run_lru (hfresh : cache.Fresh) (requests : List ModelRequest) :
    cache.Lru (cache.run requests) := by
  unfold run
  generalize ht : (⟨initial, [], []⟩ : Trace) = t
  have hstart : cache.Lru t := ht ▸ Lru.initial
  clear ht
  induction requests generalizing t with
  | nil => exact hstart
  | cons r requests ih => exact ih _ (hstart.request hfresh r)

/-! ## The law -/

/-- What is cached is open, and what has been evicted has been closed once. -/
theorem Lru.closed_count (h : cache.Lru t) {e : ModelKey × LoadedModelBundle} (he : e ∈ t.made) :
    t.state.closed.count e.2.model =
      if e ∈ t.state.entries.entries then 0 else if cache.closes e.2.model then 1 else 0 := by
  obtain ⟨gone, hsplit, hclosed⟩ := h.split
  have hnodup : ((gone ++ t.state.entries.entries).map fun e => e.2.model).Nodup :=
    (hsplit.map _).nodup_iff.mpr h.distinct
  rw [List.map_append, List.nodup_append] at hnodup
  rw [hclosed]
  split
  · next hcached =>
    refine List.count_eq_zero.mpr fun hmem => ?_
    exact hnodup.2.2 _ (List.mem_of_mem_filter hmem) _ (List.mem_map_of_mem hcached) rfl
  · next hevicted =>
    have hgone : e.2.model ∈ gone.map fun e => e.2.model :=
      List.mem_map_of_mem ((List.mem_append.mp (hsplit.symm.subset he)).resolve_right hevicted)
    split
    · next hcloses =>
      rw [List.count_filter hcloses]
      exact List.count_eq_one_of_mem hnodup.1 hgone
    · next hcloses =>
      exact List.count_eq_zero.mpr fun hmem => hcloses (List.mem_filter.mp hmem).2

/-- What a correct cache is after some requests. -/
structure Correct (cache : CachedLocalModelLoader) (t : Trace) : Prop where
  bounded : t.state.entries.entries.length ≤ cache.maxEntries
  recent : t.state.entries.keys = t.used.dedup.rtake cache.maxEntries
  /-- The last answer is the bundle that was loaded for its key; it is cached and open. -/
  answer : ∀ {r b}, t.answers.getLast? = some (r, .ok b) →
    (r.key, b) ∈ t.state.entries.entries ∧
      (t.made.filter (·.1 = r.key)).getLast? = some (r.key, b) ∧ b.model ∉ t.state.closed
  cached : ∀ e ∈ t.state.entries.entries, e ∈ t.made
  evicted : ∀ e ∈ t.made, t.state.closed.count e.2.model =
    if e ∈ t.state.entries.entries then 0 else if cache.closes e.2.model then 1 else 0

/-- **The local-model cache.** After any requests, answered or not. -/
theorem model_cache_lru (cache : CachedLocalModelLoader) (hfresh : cache.Fresh)
    (requests : List ModelRequest) : Correct cache (cache.run requests) := by
  have h := run_lru hfresh requests
  have hcached : ∀ e ∈ (cache.run requests).state.entries.entries,
      e ∈ (cache.run requests).made := by
    intro e he
    obtain ⟨gone, hsplit, -⟩ := h.split
    exact hsplit.subset (List.mem_append_right _ he)
  refine ⟨?_, h.recent, fun {r b} hlast => ?_, hcached, fun e he => h.closed_count he⟩
  · have hlength := congrArg List.length h.recent
    rw [OrderedDict.keys, List.length_map] at hlength
    rw [hlength, List.rtake, List.length_drop]
    omega
  · have hmem := OrderedDict.get?_eq_some.mp (h.answered hlast)
    refine ⟨hmem, h.latest _ hmem, ?_⟩
    have hcount := h.closed_count (hcached _ hmem)
    rw [if_pos hmem] at hcount
    exact List.count_eq_zero.mp hcount

/-! ### Three models in a cache of two -/

/-- The n-th call makes model `2 n`, unless the pin names no model; every model can be closed. -/
def smallCache : CachedLocalModelLoader where
  loads n r := if r.pin.model = "" then .error (.engineUnavailable "model_runtime.local.snapshot")
    else .ok ⟨2 * n, 2 * n + 1⟩
  closes _ := true
  maxEntries := 2
  bounded := by decide

def smallRequest (model : String) : ModelRequest := ⟨⟨model, "c0ffee"⟩, .cpu, .none, "5eed"⟩

/-- The second key is evicted: the first one is used again before the third is loaded. -/
def smallRequests : List ModelRequest :=
  [smallRequest "a", smallRequest "b", smallRequest "", smallRequest "a", smallRequest "c"]

theorem smallCache_fresh : smallCache.Fresh := by
  intro m n r r' b b' hb hb' hsame
  simp only [smallCache] at hb hb'
  split at hb
  · cases hb
  · split at hb'
    · cases hb'
    · cases hb
      cases hb'
      exact Nat.eq_of_mul_eq_mul_left (by decide) hsame

theorem model_cache_lru_small :
    (smallCache.run smallRequests).state.closed = [2] ∧
      Correct smallCache (smallCache.run smallRequests) :=
  ⟨by decide, model_cache_lru smallCache smallCache_fresh smallRequests⟩

end CorpusKit.CachedLocalModelLoader
