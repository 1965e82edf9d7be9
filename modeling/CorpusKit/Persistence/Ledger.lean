import CorpusKit.Services.Projects
import CorpusKit.Domain.Jobs

/-! # Quota usage and what it counts

`tally` counts the rows quota usage stands for: active reservations of each
class, artifacts that are not deleted, and sentences. `Ledger` says that the
usage rows equal the tally. For each write there is one lemma that gives the
tally afterwards. -/

namespace CorpusKit

def QuotaUsage.charge (usage : QuotaUsage) : RunQuotaClass → QuotaUsage
  | .cpu => { usage with activeCpuJobs := usage.activeCpuJobs + 1 }
  | .expensive => { usage with activeExpensiveJobs := usage.activeExpensiveJobs + 1 }

def QuotaUsage.discharge (usage : QuotaUsage) : RunQuotaClass → QuotaUsage
  | .cpu => { usage with activeCpuJobs := usage.activeCpuJobs - 1 }
  | .expensive => { usage with activeExpensiveJobs := usage.activeExpensiveJobs - 1 }

def QuotaUsage.store (usage : QuotaUsage) (sizeBytes : Nat) : QuotaUsage :=
  { usage with
    artifactCount := usage.artifactCount + 1, artifactBytes := usage.artifactBytes + sizeBytes }

def QuotaUsage.unstore (usage : QuotaUsage) (sizeBytes : Nat) : QuotaUsage :=
  { usage with
    artifactCount := usage.artifactCount - 1, artifactBytes := usage.artifactBytes - sizeBytes }

def QuotaUsage.jobs (usage : QuotaUsage) : RunQuotaClass → Nat
  | .cpu => usage.activeCpuJobs
  | .expensive => usage.activeExpensiveJobs

/-! ## Weights -/

/-- Whether the reservation counts as an active job of the class. -/
def QuotaReservation.weight (org : Uuid) (quotaClass : RunQuotaClass) (r : QuotaReservation) : Nat :=
  if r.organizationId = org ∧ r.state = .active ∧ r.quotaClass = quotaClass then 1 else 0

def Artifact.counts (org : Uuid) (artifact : Artifact) : Prop :=
  artifact.organizationId = org ∧ artifact.state ≠ .deleted

instance (org : Uuid) (artifact : Artifact) : Decidable (artifact.counts org) :=
  inferInstanceAs (Decidable (_ ∧ _))

def Artifact.weight (org : Uuid) (artifact : Artifact) : Nat :=
  if artifact.counts org then 1 else 0

def Artifact.bytes (org : Uuid) (artifact : Artifact) : Nat :=
  if artifact.counts org then artifact.sizeBytes else 0

def Sentence.weight (org : Uuid) (sentence : Sentence) : Nat :=
  if sentence.organizationId = org then 1 else 0

/-- The rows a usage row stands for. -/
def tally (reservations : Table Uuid QuotaReservation) (artifacts : Table Uuid Artifact)
    (sentences : Table (Uuid × Nat) Sentence) (org : Uuid) : QuotaUsage where
  activeCpuJobs := Table.total (QuotaReservation.weight org .cpu) reservations
  activeExpensiveJobs := Table.total (QuotaReservation.weight org .expensive) reservations
  artifactBytes := Table.total (Artifact.bytes org) artifacts
  artifactCount := Table.total (Artifact.weight org) artifacts
  corpusSentences := Table.total (Sentence.weight org) sentences

/-- An organization without a usage row has used nothing. -/
def usageOf (usages : Table Uuid QuotaUsage) (org : Uuid) : QuotaUsage :=
  (usages.lookup org).getD {}

def Ledger (usages : Table Uuid QuotaUsage) (reservations : Table Uuid QuotaReservation)
    (artifacts : Table Uuid Artifact) (sentences : Table (Uuid × Nat) Sentence) : Prop :=
  ∀ org, usageOf usages org = tally reservations artifacts sentences org

variable {usages : Table Uuid QuotaUsage} {reservations : Table Uuid QuotaReservation}
  {artifacts : Table Uuid Artifact} {sentences : Table (Uuid × Nat) Sentence}

theorem Ledger.usage (h : Ledger usages reservations artifacts sentences) {org : Uuid}
    {usage : QuotaUsage} (hu : usages.lookup org = some usage) :
    usage = tally reservations artifacts sentences org := by
  have := h org
  unfold usageOf at this
  rwa [hu] at this

/-- A write to one usage row that matches what became of the tally. -/
theorem Ledger.write (h : Ledger usages reservations artifacts sentences) {org : Uuid}
    {usage : QuotaUsage} {reservations' : Table Uuid QuotaReservation}
    {artifacts' : Table Uuid Artifact} {sentences' : Table (Uuid × Nat) Sentence}
    (hat : tally reservations' artifacts' sentences' org = usage)
    (hoff : ∀ o, o ≠ org → tally reservations' artifacts' sentences' o =
      tally reservations artifacts sentences o) :
    Ledger (usages.insert org usage) reservations' artifacts' sentences' := by
  intro o
  unfold usageOf
  by_cases ho : o = org
  · subst ho
    rw [AList.lookup_insert]
    exact hat.symm
  · rw [AList.lookup_insert_ne ho, hoff o ho]
    exact h o

/-- Rows whose weights stay leave the ledger alone. -/
theorem Ledger.frame (h : Ledger usages reservations artifacts sentences)
    {reservations' : Table Uuid QuotaReservation} {artifacts' : Table Uuid Artifact}
    {sentences' : Table (Uuid × Nat) Sentence}
    (hsame : ∀ o, tally reservations' artifacts' sentences' o =
      tally reservations artifacts sentences o) :
    Ledger usages reservations' artifacts' sentences' := fun o => (h o).trans (hsame o).symm

/-! ## Reservations -/

theorem QuotaReservation.weight_inactive {org : Uuid} {quotaClass : RunQuotaClass}
    {r : QuotaReservation} (h : r.state ≠ .active) : r.weight org quotaClass = 0 :=
  if_neg fun hw => h hw.2.1

theorem QuotaReservation.weight_elsewhere {org : Uuid} {quotaClass : RunQuotaClass}
    {r : QuotaReservation} (h : org ≠ r.organizationId) : r.weight org quotaClass = 0 :=
  if_neg fun hw => h hw.1.symm

theorem total_reserve {rid : Uuid} {r : QuotaReservation} (hnew : reservations.lookup rid = none)
    (hactive : r.state = .active) (quotaClass : RunQuotaClass) :
    Table.total (QuotaReservation.weight r.organizationId quotaClass) (reservations.insert rid r) =
      Table.total (QuotaReservation.weight r.organizationId quotaClass) reservations +
        if r.quotaClass = quotaClass then 1 else 0 := by
  rw [Table.total_insert_new hnew, Nat.add_comm]
  simp [QuotaReservation.weight, hactive]

theorem tally_reserve {rid : Uuid} {r : QuotaReservation} (hnew : reservations.lookup rid = none)
    (hactive : r.state = .active) :
    tally (reservations.insert rid r) artifacts sentences r.organizationId =
      (tally reservations artifacts sentences r.organizationId).charge r.quotaClass := by
  unfold tally
  rw [total_reserve hnew hactive, total_reserve hnew hactive]
  cases r.quotaClass <;> rfl

theorem tally_reserve_off {rid : Uuid} {r : QuotaReservation}
    (hnew : reservations.lookup rid = none) {o : Uuid} (ho : o ≠ r.organizationId) :
    tally (reservations.insert rid r) artifacts sentences o =
      tally reservations artifacts sentences o := by
  unfold tally
  rw [Table.total_insert_new hnew, Table.total_insert_new hnew,
    QuotaReservation.weight_elsewhere ho, QuotaReservation.weight_elsewhere ho, Nat.zero_add,
    Nat.zero_add]

theorem total_release {rid : Uuid} {r r' : QuotaReservation}
    (hres : reservations.lookup rid = some r) (hactive : r.state = .active)
    (hended : r'.state ≠ .active) (quotaClass : RunQuotaClass) :
    Table.total (QuotaReservation.weight r.organizationId quotaClass) (reservations.insert rid r') =
      Table.total (QuotaReservation.weight r.organizationId quotaClass) reservations -
        if r.quotaClass = quotaClass then 1 else 0 := by
  have hmoved := Table.total_insert_old (r := r')
    (w := QuotaReservation.weight r.organizationId quotaClass) hres
  rw [QuotaReservation.weight_inactive hended] at hmoved
  have hw : r.weight r.organizationId quotaClass = if r.quotaClass = quotaClass then 1 else 0 := by
    simp [QuotaReservation.weight, hactive]
  omega

theorem tally_release {rid : Uuid} {r : QuotaReservation} (r' : QuotaReservation)
    (hres : reservations.lookup rid = some r) (hactive : r.state = .active)
    (hended : r'.state ≠ .active) :
    tally (reservations.insert rid r') artifacts sentences r.organizationId =
      (tally reservations artifacts sentences r.organizationId).discharge r.quotaClass := by
  unfold tally
  rw [total_release hres hactive hended, total_release hres hactive hended]
  cases r.quotaClass <;> rfl

theorem tally_reservation_same {rid : Uuid} {r r' : QuotaReservation} {o : Uuid}
    (hres : reservations.lookup rid = some r)
    (hw : ∀ quotaClass, r'.weight o quotaClass = r.weight o quotaClass) :
    tally (reservations.insert rid r') artifacts sentences o =
      tally reservations artifacts sentences o := by
  unfold tally
  rw [Table.total_insert_same hres (hw _), Table.total_insert_same hres (hw _)]

theorem tally_release_off {rid : Uuid} {r : QuotaReservation} (r' : QuotaReservation)
    (hres : reservations.lookup rid = some r) (horg : r'.organizationId = r.organizationId)
    {o : Uuid} (ho : o ≠ r.organizationId) :
    tally (reservations.insert rid r') artifacts sentences o =
      tally reservations artifacts sentences o :=
  tally_reservation_same hres fun _ => by
    rw [QuotaReservation.weight_elsewhere ho, QuotaReservation.weight_elsewhere (horg ▸ ho)]

theorem tally_reservations_erase {lost : Uuid → QuotaReservation → Bool} {o : Uuid}
    (hlost : ∀ {rid r}, reservations.lookup rid = some r → lost rid r = true → r.state ≠ .active) :
    tally (reservations.deleteWhere lost) artifacts sentences o =
      tally reservations artifacts sentences o := by
  have hzero : ∀ quotaClass rid r, (rid, r) ∈ reservations.select lost →
      QuotaReservation.weight o quotaClass r = 0 := by
    intro quotaClass rid r hr
    obtain ⟨hres, hl⟩ := Table.mem_select.mp hr
    exact QuotaReservation.weight_inactive (hlost hres hl)
  unfold tally
  rw [Table.total_deleteWhere _ (hzero _), Table.total_deleteWhere _ (hzero _)]

/-! ## Artifacts -/

theorem tally_store {id : Uuid} {a : Artifact} (hnew : artifacts.lookup id = none)
    (hactive : a.state = .active) :
    tally reservations (artifacts.insert id a) sentences a.organizationId =
      (tally reservations artifacts sentences a.organizationId).store a.sizeBytes := by
  have hcounts : a.counts a.organizationId := ⟨rfl, by simp [hactive]⟩
  unfold tally
  rw [Table.total_insert_new hnew, Table.total_insert_new hnew, Artifact.weight, Artifact.bytes,
    if_pos hcounts, if_pos hcounts, Nat.add_comm 1, Nat.add_comm a.sizeBytes]
  rfl

theorem Artifact.weight_elsewhere {o : Uuid} {a : Artifact} (h : o ≠ a.organizationId) :
    a.weight o = 0 ∧ a.bytes o = 0 :=
  ⟨if_neg fun hc => h hc.1.symm, if_neg fun hc => h hc.1.symm⟩

theorem tally_store_off {id : Uuid} {a : Artifact} (hnew : artifacts.lookup id = none) {o : Uuid}
    (ho : o ≠ a.organizationId) :
    tally reservations (artifacts.insert id a) sentences o =
      tally reservations artifacts sentences o := by
  unfold tally
  rw [Table.total_insert_new hnew, Table.total_insert_new hnew, (Artifact.weight_elsewhere ho).1,
    (Artifact.weight_elsewhere ho).2, Nat.zero_add, Nat.zero_add]

theorem tally_artifact_same {id : Uuid} {a a' : Artifact} {o : Uuid}
    (hrow : artifacts.lookup id = some a)
    (hw : a'.weight o = a.weight o ∧ a'.bytes o = a.bytes o) :
    tally reservations (artifacts.insert id a') sentences o =
      tally reservations artifacts sentences o := by
  unfold tally
  rw [Table.total_insert_same hrow hw.1, Table.total_insert_same hrow hw.2]

theorem tally_unstore {id : Uuid} {a a' : Artifact} (hrow : artifacts.lookup id = some a)
    (hlive : a.state ≠ .deleted) (hgone : a'.state = .deleted) :
    tally reservations (artifacts.insert id a') sentences a.organizationId =
      (tally reservations artifacts sentences a.organizationId).unstore a.sizeBytes := by
  have hcounts : a.counts a.organizationId := ⟨rfl, hlive⟩
  have hoff : ∀ o, ¬ a'.counts o := fun o hc => hc.2 hgone
  have hcount := Table.total_insert_old (r := a') (w := Artifact.weight a.organizationId) hrow
  have hbytes := Table.total_insert_old (r := a') (w := Artifact.bytes a.organizationId) hrow
  rw [Artifact.weight, Artifact.weight, if_pos hcounts, if_neg (hoff _)] at hcount
  rw [Artifact.bytes, Artifact.bytes, if_pos hcounts, if_neg (hoff _)] at hbytes
  unfold tally QuotaUsage.unstore
  congr 1
  · exact (Nat.eq_sub_of_add_eq hbytes)
  · exact (Nat.eq_sub_of_add_eq hcount)

/-- An artifact that is not deleted is counted, with its size. -/
theorem stored_le {id : Uuid} {a : Artifact} (hrow : artifacts.lookup id = some a)
    (hlive : a.state ≠ .deleted) :
    0 < (tally reservations artifacts sentences a.organizationId).artifactCount ∧
      a.sizeBytes ≤ (tally reservations artifacts sentences a.organizationId).artifactBytes := by
  have hcounts : a.counts a.organizationId := ⟨rfl, hlive⟩
  have hcount := Table.le_total (w := Artifact.weight a.organizationId) hrow
  have hbytes := Table.le_total (w := Artifact.bytes a.organizationId) hrow
  rw [Artifact.weight, if_pos hcounts] at hcount
  rw [Artifact.bytes, if_pos hcounts] at hbytes
  exact ⟨hcount, hbytes⟩

theorem tally_artifacts_map {f : Uuid → Artifact → Artifact} {o : Uuid}
    (hf : ∀ id a, (f id a).weight o = a.weight o ∧ (f id a).bytes o = a.bytes o) :
    tally reservations (artifacts.mapRows f) sentences o =
      tally reservations artifacts sentences o := by
  unfold tally
  rw [Table.total_mapRows fun id a _ => (hf id a).1, Table.total_mapRows fun id a _ => (hf id a).2]

theorem tally_artifacts_erase {lost : Uuid → Artifact → Bool} {o : Uuid}
    (hlost : ∀ {id a}, artifacts.lookup id = some a → lost id a = true → a.state = .deleted) :
    tally reservations (artifacts.deleteWhere lost) sentences o =
      tally reservations artifacts sentences o := by
  have hzero : ∀ id a, (id, a) ∈ artifacts.select lost → a.weight o = 0 ∧ a.bytes o = 0 := by
    intro id a ha
    obtain ⟨hrow, hl⟩ := Table.mem_select.mp ha
    have hoff : ¬ a.counts o := fun hc => hc.2 (hlost hrow hl)
    exact ⟨if_neg hoff, if_neg hoff⟩
  unfold tally
  rw [Table.total_deleteWhere _ fun id a ha => (hzero id a ha).1,
    Table.total_deleteWhere _ fun id a ha => (hzero id a ha).2]

/-! ## Sentences -/

theorem lookup_insertSentences {org versionId v : Uuid} {texts : List String} {ordinal n : Nat}
    {sentences : Table (Uuid × Nat) Sentence} (h : v ≠ versionId ∨ n < ordinal) :
    (ProjectWorkspace.insertSentences org versionId ordinal texts sentences).lookup (v, n) =
      sentences.lookup (v, n) := by
  induction texts generalizing ordinal sentences with
  | nil => rfl
  | cons text texts ih =>
    have hne : (v, n) ≠ (versionId, ordinal) := by
      rintro ⟨⟩
      obtain h | h := h
      · exact h rfl
      · exact Nat.lt_irrefl _ h
    unfold ProjectWorkspace.insertSentences
    rw [ih (h.imp_right Nat.lt_succ_of_lt), AList.lookup_insert_ne hne]

theorem mem_insertSentences {org versionId v : Uuid} {texts : List String} {ordinal n : Nat}
    {sentences : Table (Uuid × Nat) Sentence} {s : Sentence}
    (h : (ProjectWorkspace.insertSentences org versionId ordinal texts sentences).lookup (v, n) =
      some s) :
    (v = versionId ∧ s.organizationId = org) ∨ sentences.lookup (v, n) = some s := by
  induction texts generalizing ordinal sentences with
  | nil => exact .inr h
  | cons text texts ih =>
    obtain hnew | hrest := ih h
    · exact .inl hnew
    · obtain ⟨hk, rfl⟩ | ⟨-, hold⟩ := Table.lookup_insert_cases hrest
      · cases hk
        exact .inl ⟨rfl, rfl⟩
      · exact .inr hold

theorem total_insertSentences {org o versionId : Uuid} {texts : List String} {ordinal : Nat}
    (hnew : ∀ n, ordinal ≤ n → sentences.lookup (versionId, n) = none) :
    Table.total (Sentence.weight o)
        (ProjectWorkspace.insertSentences org versionId ordinal texts sentences) =
      Table.total (Sentence.weight o) sentences + if org = o then texts.length else 0 := by
  induction texts generalizing ordinal sentences with
  | nil => simp [ProjectWorkspace.insertSentences]
  | cons text texts ih =>
    have hfree : ∀ n, ordinal + 1 ≤ n →
        (sentences.insert (versionId, ordinal) ⟨org, text⟩).lookup (versionId, n) = none := by
      intro n hn
      rw [AList.lookup_insert_ne (fun h => by have := congrArg Prod.snd h; simp at this; omega)]
      exact hnew n (by omega)
    unfold ProjectWorkspace.insertSentences
    rw [ih hfree, Table.total_insert_new (hnew ordinal (Nat.le_refl _)), Sentence.weight]
    by_cases ho : org = o
    · simp only [ho, if_true, List.length_cons]; omega
    · simp only [ho, if_false]; omega

theorem tally_insertSentences {org versionId : Uuid} {texts : List String}
    (hnew : ∀ n, sentences.lookup (versionId, n) = none) :
    tally reservations artifacts
        (ProjectWorkspace.insertSentences org versionId 0 texts sentences) org =
      { tally reservations artifacts sentences org with
        corpusSentences :=
          (tally reservations artifacts sentences org).corpusSentences + texts.length } := by
  unfold tally
  rw [total_insertSentences fun n _ => hnew n, if_pos rfl]

theorem tally_insertSentences_off {org versionId o : Uuid} {texts : List String}
    (hnew : ∀ n, sentences.lookup (versionId, n) = none) (ho : o ≠ org) :
    tally reservations artifacts
        (ProjectWorkspace.insertSentences org versionId 0 texts sentences) o =
      tally reservations artifacts sentences o := by
  unfold tally
  rw [total_insertSentences fun n _ => hnew n, if_neg ho.symm, Nat.add_zero]

/-- Deleting sentences of one organization takes exactly their number off. -/
theorem total_sentences_erase {org : Uuid} {lost : Uuid × Nat → Sentence → Bool}
    (hlost : ∀ {k s}, lost k s = true → s.organizationId = org) :
    Table.total (Sentence.weight org) (sentences.deleteWhere lost) +
      (sentences.select lost).length = Table.total (Sentence.weight org) sentences := by
  rw [← Table.total_deleteWhere_add (t := sentences) (w := Sentence.weight org) lost]
  congr 1
  have hone : ∀ e ∈ sentences.select lost, Sentence.weight org e.2 = 1 := by
    rintro ⟨k, s⟩ he
    exact if_pos (hlost (Table.mem_select.mp he).2)
  rw [List.map_congr_left hone, List.map_const', List.sum_replicate]
  exact (Nat.mul_one _).symm

theorem tally_sentences_erase {org : Uuid} {lost : Uuid × Nat → Sentence → Bool}
    (hlost : ∀ {k s}, lost k s = true → s.organizationId = org) :
    tally reservations artifacts (sentences.deleteWhere lost) org =
      { tally reservations artifacts sentences org with
        corpusSentences := (tally reservations artifacts sentences org).corpusSentences -
          (sentences.select lost).length } := by
  have hsum : Table.total (Sentence.weight org) (sentences.deleteWhere lost) +
      (sentences.select lost).length = Table.total (Sentence.weight org) sentences :=
    total_sentences_erase hlost
  unfold tally
  congr 1
  exact Nat.eq_sub_of_add_eq hsum

theorem tally_sentences_erase_off {org o : Uuid} {lost : Uuid × Nat → Sentence → Bool}
    (hlost : ∀ {k s}, lost k s = true → s.organizationId = org) (ho : o ≠ org) :
    tally reservations artifacts (sentences.deleteWhere lost) o =
      tally reservations artifacts sentences o := by
  have hzero : ∀ k s, (k, s) ∈ sentences.select lost → Sentence.weight o s = 0 := by
    intro k s hs
    exact if_neg fun h => ho (h.symm.trans (hlost (Table.mem_select.mp hs).2))
  unfold tally
  rw [Table.total_deleteWhere _ hzero]

end CorpusKit
