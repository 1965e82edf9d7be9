import CorpusKit.Properties.QuotaLedger

/-! # The quota policy and its users

A transaction that charges quota has read the policy before it waits for the usage row.
As long as no limit is lowered in between, the usage of an organization stays within the
committed policy, and the policy admits every run with an active reservation. -/

namespace CorpusKit

open Transaction Program Interleaving

/-! ## More generous policies -/

/-- No limit of the policy is above that of the other. -/
structure QuotaPolicyValues.Within (p q : QuotaPolicyValues) : Prop where
  cpu : p.maxConcurrentCpuJobs ≤ q.maxConcurrentCpuJobs
  expensive : p.maxConcurrentExpensiveJobs ≤ q.maxConcurrentExpensiveJobs
  bytes : p.maxArtifactBytes ≤ q.maxArtifactBytes
  count : p.maxArtifactCount ≤ q.maxArtifactCount
  sentences : p.maxCorpusSentences ≤ q.maxCorpusSentences
  accepted : p.maxGenerationAcceptedSentences ≤ q.maxGenerationAcceptedSentences
  iterations : p.maxGenerationIterations ≤ q.maxGenerationIterations
  deadline : p.maxActivityDeadline ≤ q.maxActivityDeadline
  inputTokens : p.maxProviderInputTokens ≤ q.maxProviderInputTokens
  outputTokens : p.maxProviderOutputTokens ≤ q.maxProviderOutputTokens
  cost : p.maxProviderCostMicrousd ≤ q.maxProviderCostMicrousd
  rlSteps : p.maxRlSteps ≤ q.maxRlSteps
  rlTokens : p.maxRlTokens ≤ q.maxRlTokens

section Policies

variable {p q : QuotaPolicyValues} {usage : QuotaUsage}

theorem QuotaPolicyValues.Within.bounds (h : p.Within q) (hb : p.Bounds usage) : q.Bounds usage where
  cpu := hb.cpu.trans h.cpu
  expensive := hb.expensive.trans h.expensive
  bytes := hb.bytes.trans h.bytes
  count := hb.count.trans h.count
  sentences := hb.sentences.trans h.sentences

theorem exceeds_mono {wanted : Option Nat} {limit limit' : Nat} (h : exceeds wanted limit = false)
    (hle : limit ≤ limit') : exceeds wanted limit' = false := by
  cases wanted with
  | none => rfl
  | some n =>
    simp only [exceeds, decide_eq_false_iff_not, Nat.not_lt] at h ⊢
    exact h.trans hle

/-- A check against a limit, and what is checked after it. -/
theorem rejectWhen_bind {α : Type} {exceeded : Bool} {message : String}
    {f : Unit → Except PolicyFailure α} {a : α} :
    (rejectWhen exceeded message >>= f) = .ok a ↔ exceeded = false ∧ f () = .ok a := by
  cases exceeded <;> simp [rejectWhen, bind, Except.bind]

theorem requestCeilings_mono {kind : RunKind} {spec : RunSpec} {wanted : Ceilings}
    (h : p.Within q) (hp : requestCeilings kind spec p = .ok wanted) :
    requestCeilings kind spec q = .ok wanted := by
  have hfits : ∀ {n limit limit' : Nat}, limit ≤ limit' → decide (limit < n) = false →
      decide (limit' < n) = false := by
    intro n limit limit' hle hn
    simp only [decide_eq_false_iff_not, Nat.not_lt] at hn ⊢
    exact hn.trans hle
  unfold requestCeilings at hp ⊢
  generalize spec.request = request at hp ⊢
  cases kind with
  | generateRepository => cases request <;> exact hp
  | buildDatgIndex => cases request <;> exact hp
  | generateLlm =>
    cases request with
    | hosted request =>
      obtain ⟨hin, hp⟩ := rejectWhen_bind.mp hp
      obtain ⟨hout, hp⟩ := rejectWhen_bind.mp hp
      refine rejectWhen_bind.mpr ⟨hfits h.inputTokens hin,
        rejectWhen_bind.mpr ⟨hfits h.outputTokens hout, ?_⟩⟩
      cases hcost : microusd request.budget.maxCostUsd with
      | error e => rw [hcost] at hp; cases hp
      | ok cost =>
        rw [hcost] at hp
        obtain ⟨hle, hp⟩ := rejectWhen_bind.mp hp
        exact rejectWhen_bind.mpr ⟨hfits h.cost hle, hp⟩
    | _ => exact hp
  | generateLocal =>
    cases request with
    | «local» request =>
      obtain ⟨hout, hp⟩ := rejectWhen_bind.mp hp
      exact rejectWhen_bind.mpr ⟨hfits h.outputTokens hout, hp⟩
    | _ => exact hp
  | perplexity =>
    cases request with
    | analysis request =>
      obtain ⟨hin, hp⟩ := rejectWhen_bind.mp hp
      exact rejectWhen_bind.mpr ⟨hfits h.inputTokens hin, hp⟩
    | _ => exact hp
  | generateDatg =>
    cases request with
    | datgGeneration request =>
      obtain ⟨hout, hp⟩ := rejectWhen_bind.mp hp
      exact rejectWhen_bind.mpr ⟨hfits h.outputTokens hout, hp⟩
    | _ => exact hp
  | trainPhonRl =>
    cases request with
    | training request =>
      obtain ⟨hsteps, hp⟩ := rejectWhen_bind.mp hp
      obtain ⟨htokens, hp⟩ := rejectWhen_bind.mp hp
      exact rejectWhen_bind.mpr ⟨hfits h.rlSteps hsteps,
        rejectWhen_bind.mpr ⟨hfits h.rlTokens htokens, hp⟩⟩
    | _ => exact hp
  | _ => exact hp

/-- What a policy admits, a more generous one admits. -/
theorem QuotaPolicyValues.Within.admits (h : p.Within q) {kind : RunKind} {spec : RunSpec}
    (hp : Admits p kind spec) : Admits q kind spec := by
  obtain ⟨deadline, hp⟩ := hp
  unfold validateRunResourcePolicy at hp
  cases hwanted : requestCeilings kind spec p with
  | error e => rw [hwanted] at hp; cases hp
  | ok wanted =>
    rw [hwanted] at hp
    obtain ⟨haccepted, hp⟩ := rejectWhen_bind.mp hp
    obtain ⟨hiterations, hp⟩ := rejectWhen_bind.mp hp
    obtain ⟨hdeadline, hp⟩ := rejectWhen_bind.mp hp
    refine ⟨deadline, ?_⟩
    unfold validateRunResourcePolicy
    rw [requestCeilings_mono h hwanted]
    exact rejectWhen_bind.mpr ⟨exceeds_mono haccepted h.accepted, rejectWhen_bind.mpr
      ⟨exceeds_mono hiterations h.iterations, rejectWhen_bind.mpr
        ⟨exceeds_mono hdeadline h.deadline, hp⟩⟩⟩

/-- Writing what was loaded leaves the committed limits; writing something else writes it. -/
theorem QuotaPolicyValues.within_write {committed loaded new : QuotaPolicyValues}
    (h : loaded.Within committed) : new.Within (committed.write loaded new) := by
  have hfield : ∀ {c l n : Nat}, l ≤ c → n ≤ if n = l then c else n := by
    intro c l n hle
    split
    · next heq => exact heq ▸ hle
    · exact Nat.le_refl _
  exact ⟨hfield h.cpu, hfield h.expensive, hfield h.bytes, hfield h.count, hfield h.sentences,
    hfield h.accepted, hfield h.iterations, hfield h.deadline, hfield h.inputTokens,
    hfield h.outputTokens, hfield h.cost, hfield h.rlSteps, hfield h.rlTokens⟩

/-! ## Usage under a policy -/

theorem QuotaPolicyValues.Bounds.zero (p : QuotaPolicyValues) : p.Bounds {} :=
  ⟨Nat.zero_le _, Nat.zero_le _, Nat.zero_le _, Nat.zero_le _, Nat.zero_le _⟩

theorem QuotaPolicyValues.Bounds.discharge (h : p.Bounds usage) (quotaClass : RunQuotaClass) :
    p.Bounds (usage.discharge quotaClass) := by
  cases quotaClass with
  | cpu => exact { h with cpu := (Nat.sub_le _ _).trans h.cpu }
  | expensive => exact { h with expensive := (Nat.sub_le _ _).trans h.expensive }

theorem QuotaPolicyValues.Bounds.charge (h : p.Bounds usage) {quotaClass : RunQuotaClass}
    (hslot : p.HasSlot usage quotaClass) : p.Bounds (usage.charge quotaClass) := by
  cases quotaClass with
  | cpu => exact { h with cpu := hslot }
  | expensive => exact { h with expensive := hslot }

theorem QuotaPolicyValues.Within.hasSlot (h : p.Within q) {quotaClass : RunQuotaClass}
    (hslot : p.HasSlot usage quotaClass) : q.HasSlot usage quotaClass := by
  cases quotaClass with
  | cpu => exact Nat.lt_of_lt_of_le hslot h.cpu
  | expensive => exact Nat.lt_of_lt_of_le hslot h.expensive

theorem QuotaPolicyValues.Bounds.store (h : p.Bounds usage) {size : Nat}
    (hcount : usage.artifactCount + 1 ≤ p.maxArtifactCount)
    (hbytes : usage.artifactBytes + size ≤ p.maxArtifactBytes) : p.Bounds (usage.store size) :=
  { h with count := hcount, bytes := hbytes }

theorem QuotaPolicyValues.Bounds.unstore (h : p.Bounds usage) (size : Nat) :
    p.Bounds (usage.unstore size) :=
  { h with count := (Nat.sub_le _ _).trans h.count, bytes := (Nat.sub_le _ _).trans h.bytes }

end Policies

/-! ## The invariant -/

/-- The usage rows keep within the policies. -/
def UsagesWithin (P : Uuid → QuotaPolicyValues) (usages : Table Uuid QuotaUsage) : Prop :=
  ∀ org usage, usages.lookup org = some usage → (P org).Bounds usage

/-- The policies admit every run with an active reservation. -/
def RunsAdmitted (P : Uuid → QuotaPolicyValues) (runs : Table Uuid Run)
    (reservations : Table Uuid QuotaReservation) : Prop :=
  ∀ rid r run, reservations.lookup rid = some r → r.state = .active →
    runs.lookup r.runId = some run → Admits (P r.organizationId) run.kind run.spec

structure Db.WithinQuota (P : Uuid → QuotaPolicyValues) (db : Db) : Prop where
  usages : UsagesWithin P db.quotaUsages
  runs : RunsAdmitted P db.runs db.quotaReservations

section Invariant

variable {P : Uuid → QuotaPolicyValues} {usages : Table Uuid QuotaUsage} {runs : Table Uuid Run}
  {reservations : Table Uuid QuotaReservation}

theorem UsagesWithin.insert (h : UsagesWithin P usages) {org : Uuid} {usage : QuotaUsage}
    (hnew : (P org).Bounds usage) : UsagesWithin P (usages.insert org usage) := by
  intro o u hlookup
  obtain ⟨rfl, rfl⟩ | ⟨-, hold⟩ := Table.lookup_insert_cases hlookup
  · exact hnew
  · exact h _ _ hold

/-- A run keeps its request. -/
theorem RunsAdmitted.move (h : RunsAdmitted P runs reservations) {runId : Uuid} {run run' : Run}
    (hrun : runs.lookup runId = some run) (hkind : run'.kind = run.kind) (hspec : run'.spec = run.spec) :
    RunsAdmitted P (runs.insert runId run') reservations := by
  intro rid r moved hr hactive hlookup
  obtain ⟨rfl, rfl⟩ | ⟨-, hold⟩ := Table.lookup_insert_cases hlookup
  · rw [hkind, hspec]
    exact h _ _ _ hr hactive hrun
  · exact h _ _ _ hr hactive hold

/-- A reservation that is written is released, or it stays what it was for. -/
theorem RunsAdmitted.write (h : RunsAdmitted P runs reservations) {rid : Uuid}
    {r r' : QuotaReservation} (hr : reservations.lookup rid = some r)
    (hsame : r'.state = .active → r.state = .active ∧ r'.runId = r.runId ∧
      r'.organizationId = r.organizationId) :
    RunsAdmitted P runs (reservations.insert rid r') := by
  intro id written run hlookup hactive hrun
  obtain ⟨rfl, rfl⟩ | ⟨-, hold⟩ := Table.lookup_insert_cases hlookup
  · obtain ⟨hwas, hid, horg⟩ := hsame hactive
    rw [horg]
    exact h _ _ _ hr hwas (hid ▸ hrun)
  · exact h _ _ _ hold hactive hrun

/-- A new run comes with its reservation. -/
theorem RunsAdmitted.enter (h : RunsAdmitted P runs reservations) {runId rid : Uuid} {run : Run}
    {r : QuotaReservation} (hfree : ∀ {id held}, reservations.lookup id = some held → held.runId ≠ runId)
    (hid : r.runId = runId) (hadmits : Admits (P r.organizationId) run.kind run.spec) :
    RunsAdmitted P (runs.insert runId run) (reservations.insert rid r) := by
  intro id held entered hlookup hactive hrun
  obtain ⟨rfl, rfl⟩ | ⟨-, hold⟩ := Table.lookup_insert_cases hlookup
  · rw [hid, AList.lookup_insert] at hrun
    cases hrun
    exact hadmits
  · rw [AList.lookup_insert_ne (hfree hold)] at hrun
    exact h _ _ _ hold hactive hrun

theorem RunsAdmitted.subset (h : RunsAdmitted P runs reservations) {runs' : Table Uuid Run}
    {reservations' : Table Uuid QuotaReservation}
    (hruns : ∀ {id run}, runs'.lookup id = some run → runs.lookup id = some run)
    (hreservations : ∀ {id r}, reservations'.lookup id = some r → reservations.lookup id = some r) :
    RunsAdmitted P runs' reservations' :=
  fun _ _ _ hr hactive hrun => h _ _ _ (hreservations hr) hactive (hruns hrun)

variable {permit : Permit} {db db' : Db}

/-- A change within the policies that its transaction has read. -/
theorem Change.within (hc : Change permit db db') (hi : db.Inv)
    (hread : ∀ {org policy}, permit.policy org = some policy → policy.Within (P org))
    (h : db.WithinQuota P) : db'.WithinQuota P := by
  cases hc with
  | move hrun hmove hlive hask hfree horg hevent htitle =>
    exact { h with runs := h.runs.move hrun rfl rfl }
  | @finish runId rid run target summary code askedAt event reservation usage ending time hrun hmove
      hend hcancel hask hfree horg hevent hres hown hactive hending husage htitle =>
    have hmoved : RunsAdmitted P (db.runs.insert runId (run.moved target summary code askedAt))
      db.quotaReservations := h.runs.move hrun rfl rfl
    refine ⟨h.usages.insert ((h.usages _ _ husage).discharge _), hmoved.write hres fun hstate => ?_⟩
    exact absurd (show ending = .active from hstate) hending
  | @adopt runId rid run artifact event reservation usage policy head adopted succeeded time mediaType
      schemaId hrun hstate hask hfree horg hevent hres hown hactive hkept hsize hplace hkeyed hscope
      hkey hpolicy husage hcount hbytes =>
    have hwithin := hread hpolicy
    have hstored := (h.usages _ _ husage).store (hcount.trans hwithin.count)
      (hbytes.trans hwithin.bytes)
    have hmoved : RunsAdmitted P (db.runs.insert runId (run.moved .succeeded
      (some (.artifact db.nextId mediaType schemaId artifact.sha256 artifact.sizeBytes)) none
        run.cancellationRequestedAt)) db.quotaReservations := h.runs.move hrun rfl rfl
    refine ⟨h.usages.insert (hstored.discharge _), hmoved.write hres fun hstate => ?_⟩
    cases hstate
  | note hrun hstate hfree horg hevent htitle hnext =>
    exact { h with runs := h.runs.move hrun rfl rfl }
  | settle hrun hstate => exact { h with runs := h.runs.move hrun rfl rfl }
  | renew hres => exact { h with runs := h.runs.write hres fun hstate => ⟨hstate, rfl, rfl⟩ }
  | @submit run usage policy expiresAt now event head audit hpermit hproject hkey hstate hseq hasked
      hsummary hpolicy husage hslot hadmits horg hhead hfree haudit htitle =>
    have hwithin := hread hpolicy
    refine ⟨h.usages.insert ((h.usages _ _ husage).charge (hwithin.hasSlot hslot)),
      h.runs.enter (fun {id held} hheld heq => ?_) rfl (hwithin.admits hadmits)⟩
    obtain ⟨owned, howned, -⟩ := hi.reserved.owned hheld
    exact absurd (heq ▸ hi.log.fresh _ _ howned) (Nat.lt_irrefl _)
  | store artifact hproject hkind hactive hsize hkeyed hscope hkey hpolicy husage hcount hbytes =>
    have hwithin := hread hpolicy
    exact { h with usages := h.usages.insert ((h.usages _ _ husage).store
      (hcount.trans hwithin.count) (hbytes.trans hwithin.bytes)) }
  | discard hpermit hrow hdead husage =>
    exact { h with usages := h.usages.insert ((h.usages _ _ husage).unstore _) }
  | version version texts hcorpus horg hproject hnext hcontent hcount hpolicy husage hroom =>
    have hroom' := hroom.trans (hread hpolicy).sentences
    exact { h with usages := h.usages.insert { h.usages _ _ husage with sentences := hroom' } }
  | erase hpermit hproject horg hdead hready husages =>
    refine ⟨?_, h.runs.subset (fun hrun => (Table.lookup_deleteWhere.mp hrun).1)
      fun hr => (Table.lookup_deleteWhere.mp hr).1⟩
    obtain ⟨-, rfl⟩ | ⟨usage, husage, rfl⟩ := husages
    · exact h.usages
    · have hb := h.usages _ _ husage
      exact h.usages.insert { hb with sentences := (Nat.sub_le _ _).trans hb.sentences }
  | provision org =>
    refine { h with usages := ?_ }
    cases db.quotaUsages.lookup org with
    | some usage => exact h.usages
    | none => exact h.usages.insert (.zero _)
  | _ => exact { h with usages := h.usages }

theorem Changes.within (hc : Changes permit db db') (hi : db.Inv)
    (hread : ∀ {org policy}, permit.policy org = some policy → policy.Within (P org))
    (h : db.WithinQuota P) : db'.WithinQuota P := by
  induction hc with
  | refl => exact h
  | tail hsteps hstep ih => exact hstep.within (Changes.inv hsteps hi) hread ih

end Invariant

/-! ## The law -/

theorem defaultPolicy_concurrent : (1 ≤ 3 ∧ 3 ≤ 1000) ∧ 1 ≤ 1 ∧ 1 ≤ 1000 := by decide

theorem defaultPolicy_deadline : 0 < seconds 300 ∧ seconds 300 ≤ seconds 86400 := by decide

theorem defaultPolicy_positive : ∀ limit ∈ [10 * 1024 * 1024 * 1024, 10000, 1000000, 100, 500,
    1000000, 100000, 10000000, 10000, 10000000, 100 * 1024 * 1024], 1 ≤ limit := by decide

def defaultPolicy : QuotaPolicyValues where
  concurrent_bounds := defaultPolicy_concurrent
  deadline_bounds := defaultPolicy_deadline
  positive := defaultPolicy_positive

/-- The committed policy of an organization; a missing one is the default. -/
def Db.policyOf (db : Db) (org : Uuid) : QuotaPolicyValues :=
  (db.quotaPolicies.lookup org).getD defaultPolicy

/-- The organization and the policy that a transaction has read before. -/
def Action.reads? {β : Type} (action : Action β) (org : Uuid) : Option QuotaPolicyValues :=
  match action with
  | .replacePolicy current organizationId _ _ _ => if org = organizationId then current else none
  | action => action.permit.policy org

def Op.reads? {β : Type} : Op β → Uuid → Option QuotaPolicyValues
  | .write action, org => action.reads? org
  | _, _ => none

variable {dep : Deployment} {calls : Calls}

/-- No limit was lowered after the transaction has read the policy. -/
def Unlowered : Guard (system dep calls) := fun cfg _ _ o => ∀ org policy,
  Op.reads? o org = some policy → policy.Within (cfg.world.db.policyOf org)

section Policies

variable {permit : Permit} {db db' : Db}

/-- Only a replacement changes what a policy says. -/
theorem Change.policyOf_eq (hc : Change permit db db') (hpermit : permit.replaces = false) :
    db'.policyOf = db.policyOf := by
  cases hc with
  | policy hreplaces => rw [hpermit] at hreplaces; cases hreplaces
  | provision org =>
    funext o
    unfold Db.policyOf
    cases hrow : db.quotaPolicies.lookup org with
    | some policy => rfl
    | none =>
      by_cases hsame : o = org
      · rw [hsame, hrow]
        show ((db.quotaPolicies.insert org _).lookup org).getD _ = _
        rw [AList.lookup_insert]
        rfl
      · show ((db.quotaPolicies.insert org _).lookup o).getD _ = _
        rw [AList.lookup_insert_ne hsame]
  | _ => rfl

theorem Changes.policyOf_eq (hc : Changes permit db db') (hpermit : permit.replaces = false) :
    db'.policyOf = db.policyOf := by
  induction hc with
  | refl => rfl
  | tail _ hstep ih => exact (hstep.policyOf_eq hpermit).trans ih

theorem Db.policyOf_insert {org : Uuid} {policy : QuotaPolicyValues}
    (h : db'.quotaPolicies = db.quotaPolicies.insert org policy) (o : Uuid) :
    (o = org ∧ db'.policyOf o = policy) ∨ (o ≠ org ∧ db'.policyOf o = db.policyOf o) := by
  unfold Db.policyOf
  rw [h]
  by_cases hsame : o = org
  · refine .inl ⟨hsame, ?_⟩
    rw [hsame, AList.lookup_insert]
    rfl
  · exact .inr ⟨hsame, by rw [AList.lookup_insert_ne hsame]⟩

/-- A replacement that read limits which nobody lowered. -/
theorem replacePolicy_within {current : Option QuotaPolicyValues} {org : Uuid}
    {policy : QuotaPolicyValues} {requestId : Option String} {now : Instant} {u : Unit} (hi : db.Inv)
    (hread : ∀ loaded, current = some loaded → loaded.Within (db.policyOf org))
    (h : db.WithinQuota db.policyOf)
    (hret : Returns (replacePolicy current org policy requestId now) db u db') :
    db'.WithinQuota db'.policyOf := by
  unfold replacePolicy at hret
  obtain ⟨⟨loaded, usage⟩, s, hlocked, hret⟩ := hret.bind
  obtain ⟨hloaded, husage, rfl⟩ := QuotaManager.locked_returns hlocked
  obtain ⟨u, s, hreq, hret⟩ := hret.bind
  obtain ⟨⟨hcpu, hexpensive, hbytes, hcount, hsentences⟩, rfl⟩ := hreq.require
  obtain ⟨a, s, hget, hret⟩ := hret.bind
  obtain ⟨rfl, rfl⟩ := hget.get
  obtain ⟨u, s, hreq, hret⟩ := hret.bind
  obtain ⟨hruns, rfl⟩ := hreq.require
  obtain ⟨committed, s, hfound, hret⟩ := hret.bind
  obtain ⟨hcommitted, rfl⟩ := hfound.found
  obtain ⟨u, s, hset, hret⟩ := hret.bind
  obtain rfl := hset.set
  obtain ⟨head, -, -, hdb⟩ := append_returns hret
  have husages : db'.quotaUsages = db.quotaUsages := by rw [hdb]
  have hrows : db'.runs = db.runs ∧ db'.quotaReservations = db.quotaReservations := by
    rw [hdb]
    exact ⟨rfl, rfl⟩
  have hwritten : ∀ o, _ := Db.policyOf_insert (show db'.quotaPolicies = _ by rw [hdb])
  have hpolicyOf : db.policyOf org = committed := by
    unfold Db.policyOf
    rw [hcommitted]
    rfl
  have hnew : policy.Within (committed.write loaded policy) :=
    QuotaPolicyValues.within_write (hpolicyOf ▸ hread loaded hloaded)
  refine ⟨fun o row hrow => ?_, fun rid r run hr hactive hrun => ?_⟩
  · rw [husages] at hrow
    obtain ⟨rfl, heq⟩ | ⟨-, heq⟩ := hwritten o
    · obtain rfl := Option.some.inj (husage.symm.trans hrow)
      rw [heq]
      exact hnew.bounds ⟨hcpu, hexpensive, hbytes, hcount, hsentences⟩
    · rw [heq]
      exact h.usages _ _ hrow
  · rw [hrows.2] at hr
    rw [hrows.1] at hrun
    obtain ⟨horg, heq⟩ | ⟨-, heq⟩ := hwritten r.organizationId
    · obtain ⟨owned, howned, hholds⟩ := hi.reserved.owned hr
      obtain rfl := Option.some.inj (howned.symm.trans hrun)
      have howns : owned ∈ db.run? org r.runId := by
        unfold Db.run?
        rw [Option.mem_def, Option.filter_eq_some_iff, beq_iff_eq]
        exact ⟨hrun, hholds.org.symm.trans horg⟩
      have hok := hruns (rid, r) (Table.mem_rows.mpr hr) horg hactive owned howns
      have hadmits : Admits policy owned.kind owned.spec := by
        unfold Admits
        cases hvalid : validateRunResourcePolicy owned.kind owned.spec policy with
        | ok deadline => exact ⟨deadline, rfl⟩
        | error e => rw [hvalid] at hok; cases hok
      rw [heq]
      exact hnew.admits hadmits
    · rw [heq]
      exact h.runs _ _ _ hr hactive hrun

end Policies

/-- A transaction that works with limits which nobody lowered. -/
theorem Action.within {β : Type} {b : β} {w : World} {action : Action β} {db : Db}
    (hi : w.db.Inv) (howes : action.Owes dep w)
    (hread : ∀ org policy, action.reads? org = some policy → policy.Within (w.db.policyOf org))
    (h : w.db.WithinQuota w.db.policyOf) (hret : Returns (action.body dep) w.db b db) :
    db.WithinQuota db.policyOf := by
  have hother : action.permit.replaces = false →
      (∀ org policy, action.permit.policy org = some policy → policy.Within (w.db.policyOf org)) →
        db.WithinQuota db.policyOf := by
    intro hreplaces hpermit
    have hc := action.changes hi howes hret
    rw [hc.policyOf_eq hreplaces]
    exact hc.within hi (fun {org policy} => hpermit org policy) h
  cases action with
  | replacePolicy current organizationId policy requestId now =>
    refine replacePolicy_within hi (fun loaded hloaded => hread organizationId loaded ?_) h hret
    exact (if_pos rfl).trans hloaded
  | _ => exact hother rfl hread

theorem quota_reachable {memberships : List Membership} {cfg : ServiceConfig dep}
    (h : Reachable Unlowered (World.initial memberships) cfg) :
    cfg.world.db.WithinQuota cfg.world.db.policyOf := by
  have hrespects : Respects ((base dep (services dep)).lawful Unlowered)
      fun w => w.Inv dep ∧ w.db.WithinQuota w.db.policyOf := by
    refine Respects.and ⟨fun hi hG hret => (Op.keeps hi hG.2.2 hret).1,
      fun hi => (Tick.keeps _ hi).1⟩ (fun {cfg j β o b w} hi hq hG hret => ?_) fun {t w} hq => ?_
    · have hret : Returns (Op.exec dep o) cfg.world b w := hret
      cases o with
      | query q =>
        obtain ⟨-, rfl⟩ := query_returns hret
        exact hq
      | write action =>
        obtain ⟨db, hbody, rfl⟩ := transact_returns hret
        exact action.within hi.db hG.2.2 hG.1 hq hbody
      | request r =>
        have hret : Returns r.body cfg.world b w := hret
        rw [r.db_eq hret]
        exact hq
    · cases t <;> exact hq
  refine (hrespects.reachable (lawful_reachable h) ⟨World.inv_initial dep memberships, ?_, ?_⟩).2
  · exact fun org usage husage => (Table.not_mem_empty husage).elim
  · exact fun rid r run hr => (Table.not_mem_empty hr).elim

/-- The usage of the organization and its running work keep to the policy. -/
structure Db.KeepsTo (db : Db) (org : Uuid) (policy : QuotaPolicyValues) : Prop where
  usage : ∀ usage, db.quotaUsages.lookup org = some usage → policy.Bounds usage
  runs : db.ActiveRunsAdmitted org policy
  renewal : ∀ runId run now, db.run? org runId = some run →
    ¬ Raises (QuotaManager.renewRun org runId run now) db
      (.runtime "persisted run no longer satisfies quota policy")

/-- A renewal looks at the committed policy. -/
theorem renewRun_refused {db : Db} {org runId : Uuid} {run : Run} {now : Instant}
    (h : Raises (QuotaManager.renewRun org runId run now) db
      (.runtime "persisted run no longer satisfies quota policy")) :
    ∃ rid r policy, db.quotaReservations.lookup rid = some r ∧ r.organizationId = org ∧
      r.runId = runId ∧ r.state = .active ∧ db.quotaPolicies.lookup org = some policy ∧
        ¬ Admits policy run.kind run.spec := by
  unfold QuotaManager.renewRun at h
  obtain h | ⟨reservation, s, hreservation, h⟩ := h.bind
  · cases h
  obtain ⟨rfl, rfl⟩ := QuotaManager.reservationOf_returns hreservation
  split at h
  · cases h
  · next rid r howned =>
    obtain ⟨hr, horg, hrun⟩ := QuotaManager.ownReservation_some howned
    split at h
    · next hactive =>
      obtain h | ⟨a, s, hget, h⟩ := h.bind
      · cases h
      obtain ⟨rfl, rfl⟩ := hget.get
      obtain h | ⟨policy, s, hfound, h⟩ := h.bind
      · exact absurd (Error.runtime.inj h.found.2) (by decide)
      obtain ⟨hpolicy, rfl⟩ := hfound.found
      refine ⟨rid, r, policy, hr, horg, hrun, hactive, hpolicy, fun hadmits => ?_⟩
      obtain ⟨deadline, hvalid⟩ := hadmits
      rw [hvalid] at h
      cases h
    · cases h

/-- In every run in which no limit of a policy is lowered between a transaction's read of
the policy and its commit: the usage of every organization is within the committed policy,
the policy admits every run with an active reservation, and no renewal finds a run that it
does not admit. -/
theorem quota_policy_kept {memberships : List Membership} {cfg : ServiceConfig dep}
    (h : Reachable Unlowered (World.initial memberships) cfg) {org : Uuid}
    {policy : QuotaPolicyValues} (hpolicy : cfg.world.db.quotaPolicies.lookup org = some policy) :
    cfg.world.db.KeepsTo org policy := by
  have hkept := quota_reachable h
  have hpolicyOf : cfg.world.db.policyOf org = policy := by
    unfold Db.policyOf
    rw [hpolicy]
    rfl
  have hadmitted : ∀ {rid r run}, cfg.world.db.quotaReservations.lookup rid = some r →
      r.organizationId = org → r.state = .active → cfg.world.db.run? org r.runId = some run →
        Admits policy run.kind run.spec := by
    intro rid r run hr horg hactive hrun
    rw [← hpolicyOf, ← horg]
    exact hkept.runs _ _ _ hr hactive (Db.run?_some hrun).1
  refine ⟨fun usage husage => hpolicyOf ▸ hkept.usages _ _ husage, ?_, ?_⟩
  · intro e he horg hactive run hrun
    obtain ⟨deadline, hvalid⟩ := hadmitted (Table.mem_rows.mp he) horg hactive hrun
    rw [hvalid]
    rfl
  · intro runId run now hrun hraise
    obtain ⟨rid, r, committed, hr, horg, rfl, hactive, hcommitted, hno⟩ := renewRun_refused hraise
    rw [hpolicy] at hcommitted
    cases hcommitted
    exact hno (hadmitted hr horg hactive hrun)

/-- The transactions of these schedules read the policy that is committed. -/
def Action.readsCommitted {β : Type} (db : Db) : Action β → Bool
  | .replacePolicy current organizationId _ _ _ => current == db.quotaPolicies.lookup organizationId
  | .upload policy who _ _ _ _ => policy == db.quotaPolicies.lookup who.organizationId
  | .provision _ => true
  | .createProject .. => true
  | _ => false

def committedReads : Config Small → (β : Type) → Small.Op β → Bool := fun cfg _ o =>
  match o with
  | .write action => action.readsCommitted cfg.world.db
  | _ => true

theorem QuotaPolicyValues.Within.refl (p : QuotaPolicyValues) : p.Within p := by
  constructor <;> exact Nat.le_refl _

theorem committedReads_unlowered {cfg : Config Small} {j : Job Small} {β : Type} {o : Small.Op β}
    (h : committedReads cfg β o = true) : Unlowered cfg j β o := by
  intro org policy hreads
  have hcommitted : ∀ {organizationId : Uuid} {read : Option QuotaPolicyValues},
      (read == cfg.world.db.quotaPolicies.lookup organizationId) = true →
      (if org = organizationId then read else none) = some policy →
        policy.Within (cfg.world.db.policyOf org) := by
    intro organizationId read hsame hread
    split at hread
    · next horg =>
      have hlookup := (beq_iff_eq.mp hsame).symm.trans hread
      unfold Db.policyOf
      rw [horg, hlookup]
      exact .refl _
    · cases hread
  cases o with
  | query q => cases hreads
  | request r => cases hreads
  | write action =>
    cases action with
    | replacePolicy current organizationId new requestId now => exact hcommitted h hreads
    | upload read who userId upload retentionUntil now => exact hcommitted h hreads
    | provision organizationId => cases hreads
    | createProject who name now => cases hreads
    | _ => cases h

theorem bytesPolicy_positive (n : Nat) : ∀ limit ∈ [n + 1, 10000, 1000000, 100, 500, 1000000,
    100000, 10000000, 10000, 10000000, 100 * 1024 * 1024], 1 ≤ limit := by
  intro limit hlimit
  obtain rfl | hlimit := List.mem_cons.mp hlimit
  · exact Nat.succ_pos n
  · exact defaultPolicy_positive limit (List.mem_cons_of_mem _ hlimit)

/-- The default policy with another limit for the bytes of artifacts. -/
def bytesPolicy (n : Nat) : QuotaPolicyValues where
  maxArtifactBytes := n + 1
  concurrent_bounds := defaultPolicy_concurrent
  deadline_bounds := defaultPolicy_deadline
  positive := bytesPolicy_positive n

/-- Ten bytes are the limit. -/
def tenBytes : QuotaPolicyValues := bytesPolicy 9

/-- One byte is the limit. -/
def oneByte : QuotaPolicyValues := bytesPolicy 0

/-- Call 2 uploads ten bytes, then call 3 lowers the limit to them. -/
def uploadedThenLowered : List (Move Small) :=
  smallProject ++ smallUpload :: acts Small 2 7 ++
    .start (ServiceCall.updatePolicy 1 tenBytes none) :: acts Small 3 3

theorem quota_policy_kept_lowered :
    ∃ cfg, runIf committedReads smallStart uploadedThenLowered = some cfg ∧
      cfg.world.db.KeepsTo 1 tenBytes := by
  have hrun : (runIf committedReads smallStart uploadedThenLowered).map
      (fun cfg => cfg.world.db.quotaPolicies.lookup 1) = some (some tenBytes) := by
    decide +kernel
  obtain ⟨cfg, hcfg, hpolicy⟩ := Option.map_eq_some_iff.mp hrun
  have hreach : Reachable (M := Small) Unlowered (World.initial smallMembers) cfg :=
    @runIf_steps Small Unlowered committedReads (fun _ h => committedReads_unlowered h) _ _ _ hcfg
  exact ⟨cfg, hcfg, quota_policy_kept hreach hpolicy⟩

/-- Call 2 has read the policy for its ten bytes; call 3 lowers the limit to one byte, and
finds nothing stored; then call 2 commits. -/
def loweredUnder : List (Move Small) :=
  smallProject ++ smallUpload :: acts Small 2 5 ++
    .start (ServiceCall.updatePolicy 1 oneByte none) :: acts Small 3 3 ++ acts Small 2 2

theorem quota_policy_exceeded :
    ¬ ∀ cfg : Config Small, Reachable (M := Small) free (World.initial smallMembers) cfg →
      ∀ org policy, cfg.world.db.quotaPolicies.lookup org = some policy →
        cfg.world.db.KeepsTo org policy := by
  intro hclaim
  have hrun : (smallRun loweredUnder).map (fun cfg => (cfg.world.db.quotaPolicies.lookup 1,
      (cfg.world.db.quotaUsages.lookup 1).map (·.artifactBytes))) =
        some (some oneByte, some 10) := by
    decide +kernel
  obtain ⟨cfg, hcfg, hrun⟩ := Option.map_eq_some_iff.mp hrun
  obtain ⟨hpolicy, hbytes⟩ := Prod.mk.inj hrun
  obtain ⟨usage, husage, hten⟩ := Option.map_eq_some_iff.mp hbytes
  have hkept := (hclaim cfg (smallRun_reachable hcfg) 1 oneByte hpolicy).usage usage husage
  exact absurd (hten ▸ hkept.bytes) (by decide)

end CorpusKit
