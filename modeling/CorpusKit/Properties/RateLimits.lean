import CorpusKit.Services.RateLimits

/-! # What the rate limiter admits

A counter follows the attempts of its window up to the limit, and is only deleted
when its window has been over for so long that no call can still count in it. -/

namespace CorpusKit.RateLimits

open Transaction Program Interleaving

variable {l : Limiter} {w w' : Limits}

/-! ## Windows -/

/-- The window has been over for longer than its counters are kept. -/
def Over (l : Limiter) (epoch : Nat) (now : ℚ) : Prop := epoch + l.retentionWindows < l.epoch now

theorem epoch_mono {t t' : ℚ} (h : t ≤ t') : l.epoch t ≤ l.epoch t' :=
  Nat.div_le_div_right (Nat.floor_mono h)

theorem Over.later {epoch : Nat} {t t' : ℚ} (h : Over l epoch t) (ht : t ≤ t') : Over l epoch t' :=
  Nat.lt_of_lt_of_le h (epoch_mono ht)

/-- The seconds for which counters are kept. -/
def Limiter.retention (l : Limiter) : ℚ := l.retentionWindows * l.windowSeconds

/-- Nobody who read the clock in a window reaches its counter when it is over. -/
theorem not_over {t now : ℚ} (ht : 0 ≤ t) (h : now < t + l.retention) :
    ¬ Over l (l.epoch t) now := by
  intro hover
  have hpos : 0 < l.windowSeconds := Nat.lt_of_lt_of_le (by decide) l.window_range.1
  -- `now` lies in a window after the retention, so it is too late by a whole window
  have hend : (l.epoch t + l.retentionWindows + 1) * l.windowSeconds ≤ ⌊now⌋₊ := by
    have hnext : l.epoch t + l.retentionWindows + 1 ≤ ⌊now⌋₊ / l.windowSeconds := hover
    exact (Nat.le_div_iff_mul_le hpos).mp hnext
  have hstart : ⌊t⌋₊ < (l.epoch t + 1) * l.windowSeconds := by
    have hdiv := Nat.lt_mul_div_succ ⌊t⌋₊ hpos
    rw [Nat.mul_comm] at hdiv
    exact hdiv
  have hlate : ((l.epoch t + l.retentionWindows + 1) * l.windowSeconds : ℕ) ≤ now := by
    refine (Nat.le_floor_iff' ?_).mp hend
    exact Nat.mul_ne_zero (Nat.succ_ne_zero _) (Nat.pos_iff_ne_zero.mp hpos)
  have hearly : t < ((l.epoch t + 1) * l.windowSeconds : ℕ) := (Nat.floor_lt ht).mp hstart
  unfold Limiter.retention at h
  push_cast at hlate hearly
  linarith

/-- The delay of a refusal is at most a window, and ends where the window ends. -/
theorem windowState_delay (t : ℚ) : 1 ≤ (l.windowState t).2 ∧
    (l.windowState t).2 ≤ l.windowSeconds ∧
    ⌊t⌋₊ + (l.windowState t).2 = (l.epoch t + 1) * l.windowSeconds := by
  have hpos : 0 < l.windowSeconds := Nat.lt_of_lt_of_le (by decide) l.window_range.1
  have hmod := Nat.mod_lt ⌊t⌋₊ hpos
  have hdiv := Nat.div_add_mod ⌊t⌋₊ l.windowSeconds
  unfold Limiter.epoch Limiter.windowState
  refine ⟨by omega, by omega, ?_⟩
  rw [Nat.add_mul, Nat.one_mul, Nat.mul_comm]
  dsimp only
  omega

/-! ## Counters -/

structure Limits.Inv (w : Limits) : Prop where
  fresh : w.windows.Below w.nextId
  unique : ∀ {id id' row row'}, w.windows.lookup id = some row →
    w.windows.lookup id' = some row' → row.scope = row'.scope → id = id'
  past : 0 ≤ w.now

structure Limits.Later (w w' : Limits) : Prop where
  now : w.now ≤ w'.now
  next : w.nextId ≤ w'.nextId
  rows : Table.Kept w.nextId (fun r r' => r'.scope = r.scope) w.windows w'.windows

theorem Limits.Later.refl (w : Limits) : w.Later w :=
  ⟨le_refl _, Nat.le_refl _, .refl fun _ => rfl⟩

theorem Limits.Later.trans {u v w : Limits} (h : u.Later v) (h' : v.Later w) : u.Later w :=
  ⟨h.now.trans h'.now, h.next.trans h'.next,
    h.rows.trans h'.rows h.next fun hab hbc => hbc.trans hab⟩

theorem Limits.find_some {s : Scope} {id : Uuid} {row : Window} (h : w.find s = some (id, row)) :
    w.windows.lookup id = some row ∧ row.scope = s := by
  obtain ⟨hrow, hs⟩ := Table.find_some h
  exact ⟨hrow, beq_iff_eq.mp hs⟩

theorem Limits.find_none {s : Scope} (h : w.find s = none) {id : Uuid} {row : Window}
    (hrow : w.windows.lookup id = some row) : row.scope ≠ s := by
  have hs := Table.find_none h hrow
  exact fun heq => by simp [heq] at hs

theorem Limits.find_none_of {s : Scope}
    (h : ∀ id row, w.windows.lookup id = some row → row.scope ≠ s) : w.find s = none := by
  cases hfind : w.find s with
  | none => rfl
  | some e => exact absurd (Limits.find_some hfind).2 (h _ _ (Limits.find_some hfind).1)

theorem Limits.Inv.find (hi : w.Inv) {id : Uuid} {row : Window}
    (h : w.windows.lookup id = some row) : w.find row.scope = some (id, row) := by
  obtain ⟨⟨id', row'⟩, hfind⟩ := Table.find_isSome (p := fun _ r => r.scope == row.scope) h
    (beq_self_eq_true _)
  obtain ⟨hrow', hs⟩ := Limits.find_some hfind
  obtain rfl := hi.unique hrow' h hs
  rw [h] at hrow'
  cases hrow'
  exact hfind

theorem Limits.Inv.count (hi : w.Inv) {id : Uuid} {row : Window}
    (h : w.windows.lookup id = some row) : w.count row.scope = some row.requestCount := by
  unfold Limits.count
  rw [hi.find h]
  rfl

/-! ## What every operation owes and keeps -/

def Op.isClock {β : Type} : Op β → Bool
  | .clock => true
  | _ => false

/-- The key and the window an upsert counts for. -/
def Op.key? {β : Type} : Op β → Option (Key × Nat)
  | .upsert key epoch => some (key, epoch)
  | _ => none

/-- The job has read the clock at this time. -/
def ReadClock (past : List (Event (limiting l))) (t : ℚ) : Prop :=
  ∃ e ∈ past, Op.isClock e.op = true ∧ e.before.now = t

/-- A call counts once, in the window in which it read the clock; a purge deletes what
has been over for long enough. -/
def Op.Owes (past : List (Event (limiting l))) (w : Limits) {β : Type} : Op β → Prop
  | .upsert _ epoch =>
    (∀ e ∈ past, Op.key? e.op = none) ∧ ∃ t, ReadClock past t ∧ 0 ≤ t ∧ epoch = l.epoch t
  | .delete ids => ∀ id ∈ ids, id < w.nextId ∧
      ∀ row, w.windows.lookup id = some row → Over l row.scope.windowEpoch w.now
  | _ => True

/-- A row that keeps its scope is written. -/
theorem Limits.Inv.write (hi : w.Inv) {id : Uuid} {row row' : Window}
    (hrow : w.windows.lookup id = some row) (hscope : row'.scope = row.scope) :
    ({ w with windows := w.windows.insert id row' } : Limits).Inv where
  fresh := hi.fresh.insert (hi.fresh _ _ hrow) _
  unique {a b x y} hx hy hs := by
    obtain ⟨rfl, rfl⟩ | ⟨-, hold⟩ := Table.lookup_insert_cases hx <;>
      obtain ⟨rfl, rfl⟩ | ⟨-, hold'⟩ := Table.lookup_insert_cases hy
    · rfl
    · exact hi.unique hrow hold' (hscope.symm.trans hs)
    · exact hi.unique hold hrow (hs.trans hscope)
    · exact hi.unique hold hold' hs
  past := hi.past

/-- The first counter of a scope appears. -/
theorem Limits.Inv.draw (hi : w.Inv) {row : Window} (hnone : w.find row.scope = none) :
    ({ w with windows := w.windows.insert w.nextId row, nextId := w.nextId + 1 } : Limits).Inv where
  fresh := hi.fresh.draw _
  unique {a b x y} hx hy hs := by
    obtain ⟨rfl, rfl⟩ | ⟨-, hold⟩ := Table.lookup_insert_cases hx <;>
      obtain ⟨rfl, rfl⟩ | ⟨-, hold'⟩ := Table.lookup_insert_cases hy
    · rfl
    · exact absurd hs.symm (Limits.find_none hnone hold')
    · exact absurd hs (Limits.find_none hnone hold)
    · exact hi.unique hold hold' hs
  past := hi.past

theorem Limits.Inv.delete (hi : w.Inv) (q : Uuid → Window → Bool) :
    ({ w with windows := w.windows.deleteWhere q } : Limits).Inv where
  fresh := hi.fresh.deleteWhere _
  unique hx hy hs :=
    hi.unique (Table.lookup_deleteWhere.mp hx).1 (Table.lookup_deleteWhere.mp hy).1 hs
  past := hi.past

theorem Op.keeps {β : Type} {o : Op β} {b : β} (hi : w.Inv) (h : Returns (o.exec l) w b w') :
    w'.Inv ∧ w.Later w' := by
  have hself := Limits.Later.refl w
  cases o with
  | clock =>
    obtain ⟨-, rfl⟩ := clock_returns h
    exact ⟨hi, hself⟩
  | expired current limit =>
    obtain ⟨rfl, -⟩ := expired_returns h
    exact ⟨hi, hself⟩
  | delete ids =>
    obtain rfl := delete_returns h
    exact ⟨hi.delete _, { hself with
      rows := fun _ r hr _ => ⟨r, (Table.lookup_deleteWhere.mp hr).1, rfl⟩ }⟩
  | upsert key epoch =>
    obtain ⟨-, ⟨hnone, -, rfl⟩ | ⟨id, row, hfind, ⟨-, -, rfl⟩ | ⟨-, -, rfl⟩⟩⟩ := upsert_returns h
    · exact ⟨hi.draw hnone, { hself with
        next := Nat.le_succ _, rows := .draw (fun _ => rfl) (Nat.le_refl _) }⟩
    · have hrow := (Limits.find_some hfind).1
      exact ⟨hi.write hrow rfl, { hself with rows := .write (fun _ => rfl) hrow rfl }⟩
    · exact ⟨hi, hself⟩

theorem Tick.keeps (t : Tick) (hi : w.Inv) : (t.apply w).Inv ∧ w.Later (t.apply w) := by
  have hself := Limits.Later.refl w
  cases t with
  | pass duration forward =>
    exact ⟨{ hi with past := add_nonneg hi.past forward },
      { hself with now := le_add_of_nonneg_right forward }⟩
  | database available => exact ⟨{ hi with past := hi.past }, { hself with now := hself.now }⟩

/-- The contract of every call. -/
def rated (l : Limiter) : Contract (limiting l) where
  inv := Limits.Inv
  evolve := Limits.Later
  may := fun _ _ _ => True
  must := fun past _ o w => Op.Owes past w o
  refl := Limits.Later.refl
  trans := Limits.Later.trans
  op := fun hi _ _ h => Op.keeps hi h
  tick := fun hi => Tick.keeps _ hi

/-! ## Counters follow attempts -/

/-- The event is an upsert of this counter. -/
def tries (s : Scope) (e : Event (limiting l)) : Bool :=
  e.answered && decide ((Op.key? e.op).map (fun k => l.scope k.1 k.2) = some s)

/-- The event is an upsert that found the counter below its limit. -/
def admits (s : Scope) (e : Event (limiting l)) : Bool :=
  tries s e && decide (∀ n ∈ e.before.count s, n < l.limit s.method)

/-- The counter of a scope in a run: as many attempts are admitted as the limit allows,
and its row, unless its window is long over, knows how many there were. -/
structure Counted (s : Scope) (cfg : Config (limiting l)) : Prop where
  exact : cfg.tally (admits s) = min (l.limit s.method) (cfg.tally (tries s))
  row : ∀ {id r}, cfg.world.windows.lookup id = some r → r.scope = s →
    r.requestCount = min (l.limit s.method) (cfg.tally (tries s)) ∧ 0 < cfg.tally (tries s)
  gone : cfg.world.find s = none → cfg.tally (tries s) = 0 ∨ Over l s.windowEpoch cfg.world.now

theorem limit_pos (l : Limiter) (method : String) : 0 < l.limit method := by
  unfold Limiter.limit
  split
  · exact l.read_range.1
  · exact l.write_range.1

theorem Counted.initial (s : Scope) : Counted s (Config.init Limits.initial : Config (limiting l)) where
  exact := (Nat.min_zero _).symm
  row h := (Table.not_mem_empty h).elim
  gone _ := .inl rfl

variable {cfg cfg' : Config (limiting l)} {s : Scope}

/-- Nobody tries this counter, and no row of it is written or deleted in time. -/
theorem Counted.frame (h : Counted s cfg) (hp : ∀ p, p = tries s ∨ p = admits s →
      cfg'.tally p = cfg.tally p)
    (hrow : ∀ {id r}, cfg'.world.windows.lookup id = some r → r.scope = s →
      ∃ id', cfg.world.windows.lookup id' = some r)
    (hgone : cfg'.world.find s = none →
      cfg.world.find s = none ∨ Over l s.windowEpoch cfg'.world.now)
    (hnow : cfg.world.now ≤ cfg'.world.now) : Counted s cfg' where
  exact := by rw [hp _ (.inl rfl), hp _ (.inr rfl)]; exact h.exact
  row hlookup hs := by
    obtain ⟨id', hold⟩ := hrow hlookup hs
    rw [hp _ (.inl rfl)]
    exact h.row hold hs
  gone hnone := by
    rw [hp _ (.inl rfl)]
    obtain hnone | hover := hgone hnone
    · exact (h.gone hnone).imp_right fun hover => hover.later hnow
    · exact .inr hover

/-- The same store, and nothing counted. -/
theorem Counted.same (h : Counted s cfg) (hp : ∀ p, p = tries s ∨ p = admits s →
      cfg'.tally p = cfg.tally p) (hw : cfg'.world.windows = cfg.world.windows)
    (hnow : cfg.world.now ≤ cfg'.world.now) : Counted s cfg' := by
  refine h.frame hp (fun hlookup _ => ⟨_, hw ▸ hlookup⟩) (fun hnone => .inl ?_) hnow
  unfold Limits.find at hnone ⊢
  rwa [hw] at hnone

/-- A row of another counter is written. -/
theorem Counted.elsewhere (h : Counted s cfg) (hp : ∀ p, p = tries s ∨ p = admits s →
      cfg'.tally p = cfg.tally p) {id : Uuid} {row : Window}
    (hw : cfg'.world.windows = cfg.world.windows.insert id row) (hne : row.scope ≠ s)
    (hold : ∀ r, cfg.world.windows.lookup id = some r → r.scope ≠ s)
    (hnow : cfg.world.now ≤ cfg'.world.now) : Counted s cfg' := by
  refine h.frame hp (fun {id' r} hlookup hs => ?_) (fun hnone => .inl ?_) hnow
  · rw [hw] at hlookup
    obtain ⟨-, rfl⟩ | ⟨-, hkept⟩ := Table.lookup_insert_cases hlookup
    · exact absurd hs hne
    · exact ⟨id', hkept⟩
  · refine Limits.find_none_of fun id' r hlookup hs => ?_
    have hid : id' ≠ id := by
      rintro rfl
      exact hold r hlookup hs
    have hkept : cfg'.world.windows.lookup id' = some r := by
      rw [hw, AList.lookup_insert_ne hid]
      exact hlookup
    exact Limits.find_none hnone hkept hs

/-- A call that upserts does so for the first time, soon after it has read the clock. -/
def Prompt (l : Limiter) : Guard (limiting l) := fun cfg j _ o =>
  (Op.key? o).isSome = true → ∀ e ∈ j.history, Op.isClock e.op = true →
    cfg.world.now < e.before.now + l.retention

/-- One more attempt at this counter. -/
theorem Counted.upsert {key : Key} {epoch : Nat} {counted : Option Nat} (hi : cfg.world.Inv)
    (h : Counted (l.scope key epoch) cfg)
    (hret : Returns ((Op.upsert key epoch).exec l) cfg.world counted cfg'.world)
    (hlive : ¬ Over l epoch cfg.world.now)
    (htries : cfg'.tally (tries (l.scope key epoch)) = cfg.tally (tries (l.scope key epoch)) + 1)
    (hadmits : cfg'.tally (admits (l.scope key epoch)) = cfg.tally (admits (l.scope key epoch)) +
      if ∀ n ∈ cfg.world.count (l.scope key epoch), n < l.limit key.method then 1 else 0) :
    Counted (l.scope key epoch) cfg' := by
  have hlimit := limit_pos l key.method
  have hexact := h.exact
  have hmethod : (l.scope key epoch).method = key.method := rfl
  rw [hmethod] at hexact
  obtain ⟨-, ⟨hnone, -, hw⟩ | ⟨id, row, hfind, ⟨hlt, -, hw⟩ | ⟨hge, -, hw⟩⟩⟩ := upsert_returns hret
  · -- the first attempt: there is no row, and it was not deleted
    have hzero : cfg.tally (tries (l.scope key epoch)) = 0 := (h.gone hnone).resolve_right hlive
    have hcount : cfg.world.count (l.scope key epoch) = none := by
      unfold Limits.count
      rw [hnone]
      rfl
    rw [hcount, if_pos (by simp)] at hadmits
    refine ⟨by rw [hmethod]; omega, fun {id' r} hlookup hs => ?_, fun hgone => ?_⟩
    · rw [hw] at hlookup
      obtain ⟨-, rfl⟩ | ⟨-, hold⟩ := Table.lookup_insert_cases hlookup
      · rw [hmethod]
        exact ⟨by dsimp only; omega, by omega⟩
      · exact absurd hs (Limits.find_none hnone hold)
    · have hnew : cfg'.world.windows.lookup cfg.world.nextId = some ⟨l.scope key epoch, 1⟩ := by
        rw [hw]
        exact AList.lookup_insert _
      exact absurd rfl (Limits.find_none hgone hnew)
  all_goals
    obtain ⟨hrow, hs⟩ := Limits.find_some hfind
    obtain ⟨hvalue, hpos⟩ := h.row hrow hs
    have hcount : cfg.world.count (l.scope key epoch) = some row.requestCount := hs ▸ hi.count hrow
    rw [hmethod] at hvalue
    simp only [hcount, Option.mem_some_iff, forall_eq'] at hadmits
  · rw [if_pos hlt] at hadmits
    have hnew : cfg'.world.windows.lookup id =
        some { row with requestCount := row.requestCount + 1 } := by
      rw [hw]
      exact AList.lookup_insert _
    refine ⟨by rw [hmethod]; omega, fun {id' r} hlookup hs' => ?_, fun hgone => ?_⟩
    · rw [hw] at hlookup
      obtain ⟨-, rfl⟩ | ⟨hne, hold⟩ := Table.lookup_insert_cases hlookup
      · rw [hmethod]
        exact ⟨by dsimp only; omega, by omega⟩
      · exact absurd (hi.unique hold hrow (hs'.trans hs.symm)) hne
    · exact (Limits.find_none hgone hnew hs).elim
  · rw [if_neg (Nat.not_lt.mpr hge)] at hadmits
    have hsame : cfg'.world.windows = cfg.world.windows := by rw [hw]
    refine ⟨by rw [hmethod]; omega, fun {id' r} hlookup hs' => ?_, fun hgone => ?_⟩
    · rw [hsame] at hlookup
      obtain rfl := hi.unique hlookup hrow (hs'.trans hs.symm)
      rw [hrow] at hlookup
      cases hlookup
      rw [hmethod]
      exact ⟨by omega, by omega⟩
    · rw [← hsame] at hrow
      exact absurd hs (Limits.find_none hgone hrow)

theorem Counted.step (h : Step ((rated l).lawful (Prompt l)) cfg cfg') (hi : cfg.world.Inv)
    (hc : Counted s cfg) : Counted s cfg' := by
  obtain ⟨htally, hw | ⟨t, hw⟩⟩ | ⟨j, β, o, -, hG, hw, htally⟩ := h.tally
  · exact hc.same (fun p _ => htally p) (by rw [hw]) (by rw [hw])
  · have hlater := (t.keeps hi).2
    refine hc.same (fun p _ => htally p) ?_ (by rw [hw]; exact hlater.now)
    rw [hw]
    cases t <;> rfl
  · cases hcommit : commit (o.exec l) cfg.world with
    | mk r w' =>
      have hw' : cfg'.world = w' := hw.trans (congrArg Prod.snd hcommit)
      cases r with
      | error e =>
        obtain ⟨hsame, hraise⟩ := commit_error hcommit
        have hno : (⟨o, cfg.world, cfg'.world⟩ : Event (limiting l)).answered = false :=
          answered_raises (M := limiting l) hraise _
        have hw : cfg'.world = cfg.world := hw'.trans hsame
        refine hc.same (fun p hp => ?_) (by rw [hw]) (by rw [hw])
        rw [htally p, if_neg, Nat.add_zero]
        rintro ⟨hyes, -⟩
        obtain rfl | rfl := hp
        · simp [tries, hno] at hyes
        · simp [admits, tries, hno] at hyes
      | ok b =>
        have hret := commit_ok hcommit
        rw [← hw'] at hret
        have hyes : (⟨o, cfg.world, cfg'.world⟩ : Event (limiting l)).answered = true :=
          answered_returns (M := limiting l) hret _
        have hlater := (Op.keeps hi hret).2
        obtain ⟨hprompt, -, howes⟩ := hG
        by_cases hs : (Op.key? o).map (fun k => l.scope k.1 k.2) = some s
        · cases o with
          | upsert key epoch =>
            cases hs
            have howes : Op.Owes j.history cfg.world (Op.upsert key epoch) := howes
            obtain ⟨hfirst, t, ⟨e, he, hclock, rfl⟩, hpos, rfl⟩ := howes
            -- the job has upserted nothing before, so this attempt counts
            have hnone : ∀ p, p = tries (l.scope key (l.epoch e.before.now)) ∨
                p = admits (l.scope key (l.epoch e.before.now)) → j.history.any p = false := by
              intro p hp
              rw [List.any_eq_false]
              intro x hx
              obtain rfl | rfl := hp <;> simp [admits, tries, hfirst x hx]
            have hkey : tries (l.scope key (l.epoch e.before.now))
                (⟨Op.upsert key (l.epoch e.before.now), cfg.world, cfg'.world⟩ :
                  Event (limiting l)) = true := by
              simp [tries, hyes, Op.key?]
            refine hc.upsert hi hret (not_over hpos (hprompt rfl e he hclock)) ?_ ?_
            · rw [htally, if_pos ⟨hkey, hnone _ (.inl rfl)⟩]
            · rw [htally]
              unfold admits
              simp only [hkey, Bool.true_and, decide_eq_true_eq]
              have hold := hnone _ (.inr rfl)
              unfold admits at hold
              simp only [hold, and_true]
              rfl
          | _ => cases hs
        · have hp : ∀ p, p = tries s ∨ p = admits s → cfg'.tally p = cfg.tally p := by
            intro p hp
            rw [htally p, if_neg, Nat.add_zero]
            rintro ⟨htry, -⟩
            obtain rfl | rfl := hp <;> simp [admits, tries, hs] at htry
          cases o with
          | clock =>
            obtain ⟨-, hsame⟩ := clock_returns hret
            exact hc.same hp (by rw [← hsame]) hlater.now
          | expired current limit =>
            obtain ⟨hsame, -⟩ := expired_returns hret
            exact hc.same hp (by rw [← hsame]) hlater.now
          | upsert key epoch =>
            have hne : l.scope key epoch ≠ s := fun heq => hs (by simp [Op.key?, heq])
            obtain ⟨-, ⟨-, -, hnew⟩ | ⟨id, row, hfind, ⟨-, -, hnew⟩ | ⟨-, -, hnew⟩⟩⟩ :=
              upsert_returns hret
            · have hwindows : cfg'.world.windows = cfg.world.windows.insert cfg.world.nextId
                  ⟨l.scope key epoch, 1⟩ := by rw [hnew]
              refine hc.elsewhere hp hwindows hne (fun r hr => ?_) hlater.now
              rw [hi.fresh.none] at hr
              cases hr
            · obtain ⟨hrow, hscope⟩ := Limits.find_some hfind
              have hother : row.scope ≠ s := hscope.trans_ne hne
              have hwindows : cfg'.world.windows = cfg.world.windows.insert id
                  { row with requestCount := row.requestCount + 1 } := by rw [hnew]
              refine hc.elsewhere hp hwindows hother (fun r hr => ?_) hlater.now
              rw [hrow] at hr
              cases hr
              exact hother
            · exact hc.same hp (by rw [hnew]) hlater.now
          | delete ids =>
            have hnew := delete_returns hret
            have howes : Op.Owes j.history cfg.world (Op.delete ids) := howes
            have hwindows : cfg'.world.windows =
                cfg.world.windows.deleteWhere fun id _ => ids.contains id := by rw [hnew]
            refine hc.frame hp (fun hlookup _ => ?_) (fun hnone => ?_) hlater.now
            · rw [hwindows] at hlookup
              exact ⟨_, (Table.lookup_deleteWhere.mp hlookup).1⟩
            · by_cases hold : cfg.world.find s = none
              · exact .inl hold
              · -- the row is gone, so it was one of those that are over
                obtain ⟨⟨id, row⟩, hfind⟩ := Option.ne_none_iff_exists'.mp hold
                obtain ⟨hrow, rfl⟩ := Limits.find_some hfind
                have hmem : ids.contains id = true := by
                  by_contra hout
                  have hkept : cfg'.world.windows.lookup id = some row := by
                    rw [hwindows]
                    exact Table.lookup_deleteWhere.mpr ⟨hrow, Bool.eq_false_iff.mpr hout⟩
                  exact Limits.find_none hnone hkept rfl
                have hover := (howes id (List.contains_iff_mem.mp hmem)).2 row hrow
                exact .inr (hover.later hlater.now)

/-! ## What a call answers -/

theorem reach_raises {e : Error} (h : Raises reach w e) : e = .database := by
  obtain hget | ⟨a, t, hget, h⟩ := h.bind
  · cases hget
  · unfold Raises require at h
    split at h
    · cases h
    · cases h
      rfl

theorem upsertCount_succeeds {key : Key} {epoch : Nat} {e : Error} :
    ¬ Raises (upsertCount l key epoch) w e := by
  intro h
  obtain hget | ⟨a, t, hget, h⟩ := h.bind
  · cases hget
  · split at h
    · cases h
    · split at h <;> cases h

theorem clock_raises {e : Error} (h : Raises (Op.clock.exec l) w e) : e = .database := by
  obtain h | ⟨u, t, -, h⟩ := h.bind
  · exact reach_raises h
  · cases h

theorem upsert_raises {key : Key} {epoch : Nat} {e : Error}
    (h : Raises ((Op.upsert key epoch).exec l) w e) : e = .database := by
  obtain h | ⟨u, t, -, h⟩ := h.bind
  · exact reach_raises h
  · exact (upsertCount_succeeds h).elim

/-- The event counts a request of this key in this window. -/
def asks (key : Key) (epoch : Nat) (e : Event (limiting l)) : Bool :=
  e.answered && decide (Op.key? e.op = some (key, epoch))

/-- The event counts the request below the limit. -/
def passes (key : Key) (epoch : Nat) (e : Event (limiting l)) : Bool :=
  asks key epoch e && decide (∀ n ∈ e.before.count (l.scope key epoch), n < l.limit key.method)

/-- A call that was admitted in the window in which it read the clock. -/
def Admitted (key : Key) (past : List (Event (limiting l))) : Prop :=
  ∃ t, ReadClock past t ∧ past.any (passes key (l.epoch t)) = true

/-- A call that was counted and not admitted, with the delay it answers. -/
def Refused (key : Key) (past : List (Event (limiting l))) (delay : Nat) : Prop :=
  ∃ t, ReadClock past t ∧ past.any (asks key (l.epoch t)) = true ∧
    past.any (passes key (l.epoch t)) = false ∧ delay = (l.windowState t).2

/-- What the session of `enforce` answers. -/
def Counts (key : Key) (past : List (Event (limiting l))) : Nat × Option Nat → Prop
  | (_, some count) => count ≤ l.limit key.method ∧ Admitted key past
  | (delay, none) => Refused key past delay

/-- The call has counted nothing. -/
def Uncounted (past : List (Event (limiting l))) : Prop :=
  past.any (fun e => e.answered && (Op.key? e.op).isSome) = false

theorem countRequest_sat {who : Principal} {method route : String} (hi : w.Inv) :
    Sat (rated l) (fun a past _ => Counts ⟨who.organizationId, who.subject, route, method⟩ past a)
      (fun e past _ => e = .database ∧ Uncounted past) (countRequest l who method route) [] w := by
  refine Sat.bind hi (Sat.perform (fun _ _ _ _ => trivial)
    (fun v t v' u _ hiv _ hread hu hiu => ?_)
    fun v e u _ _ _ hraise _ _ => ⟨clock_raises (l := l) hraise, by simp [Uncounted, Op.key?]⟩)
  obtain ⟨rfl, rfl⟩ := clock_returns (l := l) hread
  refine Sat.bind hiu (Sat.perform (fun x hux hix _ => ?_)
    (fun x counted x' y _ hix _ hret _ _ => ?_) fun x e y _ _ _ hraise _ _ => ⟨?_, ?_⟩)
  · refine ⟨fun e he => ?_, v.now, ⟨_, List.mem_singleton.mpr rfl, rfl, rfl⟩, hiv.past, rfl⟩
    rw [List.mem_singleton.mp he]
    rfl
  · have hclock : ReadClock (l := l) [⟨Op.upsert ⟨who.organizationId, who.subject, route, method⟩
        (l.epoch v.now), x, x'⟩, ⟨Op.clock, v, v⟩] v.now :=
      ⟨_, List.mem_cons_of_mem _ (List.mem_singleton.mpr rfl), rfl, rfl⟩
    have hyes := answered_returns (M := limiting l) hret x'
    refine Sat.ret fun z _ _ => ?_
    have hret : Returns ((Op.upsert ⟨who.organizationId, who.subject, route, method⟩
      (l.epoch v.now)).exec l) x counted x' := hret
    obtain ⟨-, ⟨hnone, rfl, -⟩ | ⟨id, row, hfind, ⟨hlt, rfl, -⟩ | ⟨hge, rfl, -⟩⟩⟩ :=
      upsert_returns hret
    · refine ⟨limit_pos _ _, v.now, hclock, ?_⟩
      simp [passes, asks, hyes, Op.key?, Limits.count, hnone]
    · refine ⟨hlt, v.now, hclock, ?_⟩
      simp [passes, asks, hyes, Op.key?, Limits.count, hfind, hlt]
    · refine ⟨v.now, hclock, ?_, ?_, rfl⟩
      · simp [asks, hyes, Op.key?]
      · simp [passes, asks, Op.key?, Limits.count, hfind, hge]
  · have hraise : Raises ((Op.upsert ⟨who.organizationId, who.subject, route, method⟩
      (l.epoch v.now)).exec l) x e := hraise
    exact upsert_raises hraise
  · have hno := answered_raises (M := limiting l) hraise x
    simp [Uncounted, hno, Op.key?]

/-- What a call of `enforce` answers with an exception. -/
def Denied (l : Limiter) (who : Principal) (method route : String) (e : Error)
    (past : List (Event (limiting l))) : Prop :=
  (e = .trafficRateLimitExceeded "http.rate_limit.contract" l.windowSeconds ∧
      ¬ (l.upper method ∈ safeMethods ∧ isSafeRoute route = true)) ∨
    (e = .dependencyUnavailable "http.rate_limit" ∧ Uncounted past) ∨
    ∃ delay, e = .trafficRateLimitExceeded "http.rate_limit" delay ∧
      Refused ⟨who.organizationId, who.subject, route, l.upper method⟩ past delay

theorem enforce_sat {who : Principal} {method route : String} (hi : w.Inv) :
    Sat (rated l)
      (fun _ past _ => Admitted ⟨who.organizationId, who.subject, route, l.upper method⟩ past)
      (fun e past _ => Denied l who method route e past) (enforce l who method route) [] w := by
  unfold enforce
  dsimp only
  unfold Prog.require
  split
  case isFalse hunsafe => exact Sat.raise fun _ _ _ => .inl ⟨rfl, hunsafe⟩
  case isTrue =>
  rw [Prog.bind_ret]
  refine Sat.bind hi (Sat.handle hi ((countRequest_sat hi).mono (fun a past u hcounts => ?_)
    fun e past u hraise => ?_))
  · obtain ⟨delay, _ | count⟩ := a
    · exact Sat.raise fun _ _ _ => .inr (.inr ⟨delay, rfl, hcounts⟩)
    · obtain ⟨hle, hadmitted⟩ := hcounts
      simp only [if_pos hle]
      exact Sat.ret fun _ _ _ => hadmitted
  · obtain ⟨rfl, huncounted⟩ := hraise
    exact Sat.raise fun _ _ _ => .inr (.inl ⟨rfl, huncounted⟩)

theorem purgeExpired_sat {limit : Nat} (hi : w.Inv) :
    Sat (rated l) (fun _ _ _ => True) (fun _ _ _ => True) (purgeExpired l limit) [] w := by
  refine Sat.require (fun _ => ?_) fun _ _ _ => trivial
  refine Sat.bind hi (Sat.perform (fun _ _ _ _ => trivial)
    (fun v t v' u _ _ _ hread hu hiu => ?_) fun _ _ _ _ _ _ _ _ _ => trivial)
  obtain ⟨rfl, rfl⟩ := clock_returns (l := l) hread
  refine Sat.bind hiu (Sat.perform (fun _ _ _ _ => trivial)
    (fun x ids x' y hux hix _ hret hy hiy => ?_) fun _ _ _ _ _ _ _ _ _ => trivial)
  have hret : Returns ((Op.expired (l.epoch v.now) limit).exec l) x ids x' := hret
  obtain ⟨rfl, hids⟩ := expired_returns hret
  split
  · refine Sat.bind hiy (Sat.perform (fun z hyz _ _ id hid => ?_)
      (fun _ _ _ _ _ _ _ _ _ _ => Sat.ret fun _ _ _ => trivial) fun _ _ _ _ _ _ _ _ _ => trivial)
    -- a row keeps its window, and the clock only moves on
    obtain ⟨row, hrow, hover⟩ := hids id hid
    have hknown : id < x.nextId := hix.fresh _ _ hrow
    have hlater := Limits.Later.trans hy hyz
    refine ⟨Nat.lt_of_lt_of_le hknown hlater.next, fun row' hrow' => ?_⟩
    obtain ⟨old, hold, hscope⟩ := hlater.rows id row' hrow' hknown
    rw [hrow] at hold
    cases hold
    rw [hscope]
    exact Over.later hover ((Limits.Later.trans hu hux).now.trans hlater.now)
  · exact Sat.ret fun _ _ _ => trivial

/-! ## The law -/

def Call.Q (l : Limiter) : (c : Call) → c.Value → List (Event (limiting l)) → Limits → Prop
  | .enforce who method route, _, past, _ =>
    Admitted ⟨who.organizationId, who.subject, route, l.upper method⟩ past
  | .purgeExpired _, _, _, _ => True

def Call.E (l : Limiter) : Call → Error → List (Event (limiting l)) → Limits → Prop
  | .enforce who method route, e, past, _ => Denied l who method route e past
  | .purgeExpired _, _, _, _ => True

theorem Call.sat (c : Call) (hi : w.Inv) :
    Sat (rated l) (c.Q l) (c.E l) (c.prog l) [] w := by
  cases c with
  | enforce who method route => exact enforce_sat hi
  | purgeExpired limit => exact purgeExpired_sat hi

theorem Limits.inv_initial : Limits.initial.Inv where
  fresh := Table.below_empty _
  unique h := (Table.not_mem_empty h).elim
  past := le_refl _

/-- The keys that have been counted. -/
def Hashed (cfg : Config (limiting l)) (key : Key) : Prop :=
  ∃ j ∈ cfg.jobs, ∃ e ∈ j.history, ∃ epoch, Op.key? e.op = some (key, epoch)

/-- No two texts that were hashed have one digest. -/
def CollisionFree (l : Limiter) (cfg : Config (limiting l)) : Prop :=
  ∀ key key', Hashed cfg key → Hashed cfg key' →
    (l.digest key.subject = l.digest key'.subject → key.subject = key'.subject) ∧
      (l.digest key.route = l.digest key'.route → key.route = key'.route)

/-- What the limiter promises of all calls so far. -/
structure AdmitsExactly (l : Limiter) (cfg : Config (limiting l)) : Prop where
  /-- Of the requests counted for a key in a window, as many pass as the limit allows. -/
  exact : ∀ key epoch, cfg.tally (passes key epoch) =
    min (l.limit key.method) (cfg.tally (asks key epoch))
  /-- A call that returned passed. -/
  admitted : ∀ j ∈ cfg.jobs, ∀ who method route, j.call = .enforce who method route → ∀ a,
    j.Returned a → Admitted ⟨who.organizationId, who.subject, route, l.upper method⟩ j.history
  /-- A call that raised was not accepted, or counted nothing, or was refused. -/
  denied : ∀ j ∈ cfg.jobs, ∀ who method route, j.call = .enforce who method route → ∀ e,
    j.Raised e → Denied l who method route e j.history
  /-- The delay of a refusal, counted from the second in which the clock was read. -/
  delay : ∀ t : ℚ, 1 ≤ (l.windowState t).2 ∧ (l.windowState t).2 ≤ l.windowSeconds ∧
    ⌊t⌋₊ + (l.windowState t).2 = (l.epoch t + 1) * l.windowSeconds
  /-- A counter goes when no call that read the clock in its window is still due. -/
  purged : ∀ j ∈ cfg.jobs, ∀ e ∈ j.history, ∀ id row, e.before.windows.lookup id = some row →
    e.after.windows.lookup id = none →
      ∀ t, 0 ≤ t → l.epoch t = row.scope.windowEpoch → t + l.retention ≤ e.before.now

section Law

variable {cfg : Config (limiting l)}

theorem lawful_reachable (h : Reachable (Prompt l) Limits.initial cfg) :
    Reachable ((rated l).lawful (Prompt l)) Limits.initial cfg :=
  (rated l).strengthen (Call.Q l) (Call.E l) (fun _ _ => trivial) (fun c _ hi => c.sat hi) .refl
    Limits.inv_initial h

theorem reachable_inv (h : Reachable (Prompt l) Limits.initial cfg) : cfg.world.Inv :=
  ((rated l).sound (Call.Q l) (Call.E l) (fun _ _ => trivial) (fun c _ hi => c.sat hi) h
    Limits.inv_initial).1

theorem counted (h : Reachable (Prompt l) Limits.initial cfg) (s : Scope) : Counted s cfg := by
  have hlawful := lawful_reachable h
  unfold Reachable at hlawful
  induction hlawful with
  | refl => exact .initial s
  | tail hs hstep ih =>
    have hmid := Reachable.mono (fun hG => hG.1) hs
    exact (ih hmid).step hstep (reachable_inv hmid)

/-- What was upserted was upserted for a key that was hashed. -/
theorem tally_key (hdigest : CollisionFree l cfg) {key : Key} {epoch : Nat} (hkey : Hashed cfg key)
    {p q : Event (limiting l) → Bool}
    (hpq : ∀ e, Op.key? e.op = some (key, epoch) → p e = q e)
    (hp : ∀ e, p e = true → Op.key? e.op = some (key, epoch))
    (hq : ∀ e, q e = true → ∃ k, Op.key? e.op = some k ∧ l.scope k.1 k.2 = l.scope key epoch) :
    cfg.tally p = cfg.tally q := by
  refine List.countP_congr fun j hj => ?_
  simp only [List.any_eq_true]
  constructor
  · rintro ⟨e, he, hpe⟩
    exact ⟨e, he, (hpq e (hp e hpe)).symm.trans hpe⟩
  · rintro ⟨e, he, hqe⟩
    obtain ⟨⟨key', epoch'⟩, hkey', hscope⟩ := hq e hqe
    -- equal scopes are scopes of equal keys, as the digests of their texts are equal
    have hsame := hdigest key' key ⟨j, hj, e, he, epoch', hkey'⟩ hkey
    simp only [Limiter.scope, Scope.mk.injEq] at hscope
    obtain ⟨horg, hsubject, hroute, hmethod, hepoch⟩ := hscope
    have heq : key' = key := by
      cases key
      cases key'
      simp_all
    rw [heq, hepoch] at hkey'
    exact ⟨e, he, (hpq e hkey').trans hqe⟩

theorem tally_unhashed {key : Key} (hkey : ¬ Hashed cfg key) {p : Event (limiting l) → Bool}
    (hp : ∀ e, p e = true → ∃ epoch, Op.key? e.op = some (key, epoch)) : cfg.tally p = 0 := by
  refine List.countP_eq_zero.mpr fun j hj hany => ?_
  obtain ⟨e, he, hpe⟩ := List.any_eq_true.mp hany
  exact hkey ⟨j, hj, e, he, hp e hpe⟩

theorem asks_key {key : Key} {epoch : Nat} {e : Event (limiting l)}
    (h : asks key epoch e = true) : Op.key? e.op = some (key, epoch) := by
  simp only [asks, Bool.and_eq_true, decide_eq_true_eq] at h
  exact h.2

theorem passes_key {key : Key} {epoch : Nat} {e : Event (limiting l)}
    (h : passes key epoch e = true) : Op.key? e.op = some (key, epoch) := by
  simp only [passes, Bool.and_eq_true] at h
  exact asks_key h.1

theorem tries_scope {s : Scope} {e : Event (limiting l)} (h : tries s e = true) :
    ∃ k, Op.key? e.op = some k ∧ l.scope k.1 k.2 = s := by
  simp only [tries, Bool.and_eq_true, decide_eq_true_eq, Option.map_eq_some_iff] at h
  exact h.2

theorem counts_exactly (h : Reachable (Prompt l) Limits.initial cfg) (hdigest : CollisionFree l cfg)
    (key : Key) (epoch : Nat) : cfg.tally (passes key epoch) =
      min (l.limit key.method) (cfg.tally (asks key epoch)) := by
  by_cases hkey : Hashed cfg key
  · have hpasses : cfg.tally (passes key epoch) = cfg.tally (admits (l.scope key epoch)) := by
      refine tally_key hdigest hkey (fun e he => ?_) (fun e => passes_key) fun e he => ?_
      · simp only [passes, asks, admits, tries, he, Option.map_some]
        rfl
      · simp only [admits, Bool.and_eq_true] at he
        exact tries_scope he.1
    have hasks : cfg.tally (asks key epoch) = cfg.tally (tries (l.scope key epoch)) := by
      refine tally_key hdigest hkey (fun e he => ?_) (fun e => asks_key) fun e => tries_scope
      simp [asks, tries, he]
    rw [hpasses, hasks]
    exact (counted h _).exact
  · rw [tally_unhashed hkey fun e he => ⟨epoch, passes_key he⟩,
      tally_unhashed hkey fun e he => ⟨epoch, asks_key he⟩, Nat.min_zero]

/-- A counter is only deleted when its window has been over for long enough. -/
theorem deletes_over {β : Type} {o : Op β} {past : List (Event (limiting l))}
    (howes : Op.Owes past w o) {id : Uuid} {row : Window} (hrow : w.windows.lookup id = some row)
    (hgone : (commit (o.exec l) w).2.windows.lookup id = none) : Over l row.scope.windowEpoch w.now := by
  cases hcommit : commit (o.exec l) w with
  | mk r w' =>
    rw [hcommit] at hgone
    cases r with
    | error e =>
      obtain ⟨rfl, -⟩ := commit_error hcommit
      rw [hrow] at hgone
      cases hgone
    | ok b =>
      have hret := commit_ok hcommit
      cases o with
      | clock =>
        obtain ⟨-, rfl⟩ := clock_returns hret
        rw [hrow] at hgone
        cases hgone
      | expired current limit =>
        obtain ⟨rfl, -⟩ := expired_returns hret
        rw [hrow] at hgone
        cases hgone
      | upsert key epoch =>
        obtain ⟨-, ⟨-, -, rfl⟩ | ⟨id', row', -, ⟨-, -, rfl⟩ | ⟨-, -, rfl⟩⟩⟩ := upsert_returns hret
        · obtain ⟨r, hr⟩ := Table.lookup_insert_kept (j := w.nextId)
            (s := ⟨l.scope key epoch, 1⟩) hrow
          rw [hr] at hgone
          cases hgone
        · obtain ⟨r, hr⟩ := Table.lookup_insert_kept (j := id')
            (s := { row' with requestCount := row'.requestCount + 1 }) hrow
          rw [hr] at hgone
          cases hgone
        · rw [hrow] at hgone
          cases hgone
      | delete ids =>
        have howes : ∀ id ∈ ids, id < w.nextId ∧ ∀ row, w.windows.lookup id = some row →
          Over l row.scope.windowEpoch w.now := howes
        have hnew := delete_returns hret
        by_cases hmem : id ∈ ids
        · exact (howes id hmem).2 row hrow
        · have hkept : w'.windows.lookup id = some row := by
            rw [hnew]
            exact Table.lookup_deleteWhere.mpr ⟨hrow, by simpa using hmem⟩
          rw [hkept] at hgone
          cases hgone

/-- The limiter admits exactly its limit, in every run in which a call counts soon after
it has read the clock and no two of the texts have one digest. -/
theorem rate_limiter_exact (h : Reachable (Prompt l) Limits.initial cfg)
    (hdigest : CollisionFree l cfg) : AdmitsExactly l cfg where
  exact := counts_exactly h hdigest
  admitted := by
    rintro ⟨call, rest, history⟩ hj who method route rfl a ha
    have hsound := (rated l).sound (Call.Q l) (Call.E l) (fun _ _ => trivial)
      (fun c _ hi => c.sat hi) h Limits.inv_initial
    exact (hsound.2 _ hj _ ha).returned rfl hsound.1
  denied := by
    rintro ⟨call, rest, history⟩ hj who method route rfl e he
    have hsound := (rated l).sound (Call.Q l) (Call.E l) (fun _ _ => trivial)
      (fun c _ hi => c.sat hi) h Limits.inv_initial
    exact (hsound.2 _ hj _ he).raised rfl hsound.1
  delay := windowState_delay
  purged := by
    intro j hj e he id row hrow hgone t ht hepoch
    have hover : Over l row.scope.windowEpoch e.before.now := by
      refine events_hold (M := limiting l) (P := fun e => ∀ id row,
        e.before.windows.lookup id = some row → e.after.windows.lookup id = none →
          Over l row.scope.windowEpoch e.before.now) (fun _ _ _ hG id row hrow hgone => ?_)
        (lawful_reachable h) j hj e he id row hrow hgone
      exact deletes_over hG.2.2 hrow hgone
    by_contra hlate
    rw [← hepoch] at hover
    exact not_over ht (lt_of_not_ge hlate) hover

end Law

/-! ### A small limiter -/

/-- One read a window of ten seconds; every text has a digest of its own length. -/
def Limiter.small : Limiter where
  windowSeconds := 10
  readRequests := 1
  writeRequests := 1
  retentionWindows := 2
  upper := fun text => text
  digest := fun text => BitVec.ofNat 256 text.length
  window_range := by decide
  read_range := by decide
  write_range := by decide
  retention_range := by decide

/-- Whether a step of a schedule is prompt. -/
def prompt (cfg : Config (limiting .small)) (β : Type) (o : Op β) : Bool :=
  decide ((Op.key? o).isSome = true → ∀ j ∈ cfg.jobs, ∀ e ∈ j.history, Op.isClock e.op = true →
    cfg.world.now < e.before.now + Limiter.small.retention)

theorem half_nonneg : (0 : ℚ) ≤ 1 / 2 := by norm_num

/-- Half a second after the start of a window, two calls read the same route; the second
one is refused. -/
def smallCalls : List (Move (limiting .small)) :=
  [.tick (.pass (1 / 2) half_nonneg), .start (.enforce ⟨1, "owner"⟩ "GET" "/runs"),
    .start (.enforce ⟨1, "owner"⟩ "GET" "/runs"), .act 0, .act 1, .act 0, .act 1]

def smallConfig : Option (Config (limiting .small)) :=
  runIf prompt (Config.init Limits.initial) smallCalls

theorem smallConfig_reachable {cfg : Config (limiting .small)} (h : smallConfig = some cfg) :
    Reachable (Prompt .small) Limits.initial cfg :=
  runIf_steps (M := limiting .small) (G := Prompt .small) (fun {_ _ _ _} hj hcheck => by
    unfold prompt at hcheck
    rw [decide_eq_true_eq] at hcheck
    exact fun hkey => hcheck hkey _ hj) h

/-- All calls of the run have counted one key. -/
theorem smallConfig_collisionFree {cfg : Config (limiting .small)} (h : smallConfig = some cfg) :
    CollisionFree .small cfg := by
  have hkeys : (smallConfig.map fun cfg => cfg.jobs.all fun j => j.history.all fun e =>
      (Op.key? e.op).all fun k => k.1 == ⟨1, "owner", "/runs", "GET"⟩) = some true := by
    decide +kernel
  rw [h, Option.map_some, Option.some.injEq] at hkeys
  simp only [List.all_eq_true] at hkeys
  have hone : ∀ key, Hashed cfg key → key = ⟨1, "owner", "/runs", "GET"⟩ := by
    rintro key ⟨j, hj, e, he, epoch, hkey⟩
    have hall := hkeys j hj e he
    rw [hkey] at hall
    simpa using hall
  intro key key' hkey hkey'
  rw [hone key hkey, hone key' hkey']
  exact ⟨fun _ => rfl, fun _ => rfl⟩

theorem rate_limiter_exact_small :
    (smallConfig.map fun cfg => (cfg.tally (asks ⟨1, "owner", "/runs", "GET"⟩ 0),
      cfg.tally (passes ⟨1, "owner", "/runs", "GET"⟩ 0))) = some (2, 1) ∧
    ∀ cfg, smallConfig = some cfg → AdmitsExactly .small cfg :=
  ⟨by decide +kernel, fun _ h =>
    rate_limiter_exact (smallConfig_reachable h) (smallConfig_collisionFree h)⟩

/-- The refused call has read the clock half a second into the window; its delay of ten
seconds ends half a second after the window. -/
theorem refusal_overshoots :
    ¬ ∀ cfg : Config (limiting .small), Reachable (Prompt .small) Limits.initial cfg →
      ∀ j ∈ cfg.jobs, ∀ delay, j.Raised (.trafficRateLimitExceeded "http.rate_limit" delay) →
        ∀ t : ℚ, ReadClock j.history t →
          t + delay = ((Limiter.small.epoch t + 1) * Limiter.small.windowSeconds : ℕ) := by
  intro hclaim
  have hrun : (smallConfig.bind fun cfg => (cfg.jobs[1]?).map fun j =>
      (j.rest.bind Prog.raised?,
      j.history.map fun e => (Op.isClock e.op, e.before.now))) =
      some (some (.trafficRateLimitExceeded "http.rate_limit" 10),
        [(false, 1 / 2), (true, 1 / 2)]) := by
    decide +kernel
  obtain ⟨cfg, hcfg, hrun⟩ := Option.bind_eq_some_iff.mp hrun
  obtain ⟨j, hj, hrun⟩ := Option.map_eq_some_iff.mp hrun
  simp only [Prod.mk.injEq] at hrun
  obtain ⟨hraise, hhistory⟩ := hrun
  have hraised : j.Raised (.trafficRateLimitExceeded "http.rate_limit" 10) := by
    obtain ⟨p, hrest, hp⟩ := Option.bind_eq_some_iff.mp hraise
    cases p with
    | raise e =>
      cases hp
      exact hrest
    | ret a => cases hp
    | op o next => cases hp
  have hread : ReadClock j.history (1 / 2) := by
    have hmem : (true, (1 / 2 : ℚ)) ∈ j.history.map fun e => (Op.isClock e.op, e.before.now) := by
      rw [hhistory]
      simp
    obtain ⟨e, he, hpair⟩ := List.mem_map.mp hmem
    simp only [Prod.mk.injEq] at hpair
    exact ⟨e, he, hpair⟩
  have hend := hclaim cfg (smallConfig_reachable hcfg) j (List.mem_of_getElem? hj) 10 hraised _ hread
  have hepoch : Limiter.small.epoch (1 / 2) = 0 := by decide +kernel
  rw [hepoch] at hend
  norm_num [Limiter.small] at hend

end CorpusKit.RateLimits
