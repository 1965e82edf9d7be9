import CorpusKit.System.Obligations

/-! # Retention of artifacts

`purge_due` reads its candidates in one transaction and deletes their objects
after it. A candidate whose retention was not extended in between is still due
when its object goes, and so is everything of its project. -/

namespace CorpusKit

open Transaction Program Interleaving

variable {dep : Deployment} {calls : Calls}

/-- An object is removed by an operation. -/
def Deletes (e : Event (system dep calls)) (key : StorageKey) : Prop :=
  e.before.objects.lookup key ≠ none ∧ e.after.objects.lookup key = none

/-- Nothing happened to a candidate since it was read that its object delete would
miss: a row that is still there has the retention that was read, and if it was purged
by somebody else, no bytes were put back under its key. -/
def Current (w : World) (id : Uuid) (read : Artifact) : Prop :=
  ∀ row, w.db.artifacts.lookup id = some row → row.retentionUntil = read.retentionUntil ∧
    (row.state = .deleted → w.objects.lookup read.storageKey = none)

instance (w : World) (id : Uuid) (read : Artifact) : Decidable (Current w id read) :=
  inferInstanceAs (Decidable (∀ row ∈ w.db.artifacts.lookup id, _ ∧ (_ → _)))

/-- What the purge of an object must not touch: artifacts that are not due, and
projects that are kept. -/
structure HonoursRetention (w : World) (key : StorageKey) (cutoff : Instant) : Prop where
  past : cutoff ≤ w.now
  due : ∀ {id a}, w.db.artifacts.lookup id = some a → a.storageKey = key → a.retentionUntil ≤ cutoff
  window : ∀ {org projectId runId kind sha256 retentionUntil},
    key = artifactStorageKey org projectId runId kind sha256 →
      w.db.KeptUntil projectId retentionUntil → retentionUntil ≤ cutoff

/-- An object is only purged under the key of the candidate. -/
theorem deletes_purge {e : Event (system dep calls)} {id : Uuid} {read : Artifact}
    {cutoff : Instant} (hop : e.op.purge? = some (id, read, cutoff))
    (hafter : e.after = (commit (e.op.exec dep) e.before).2) {key : StorageKey}
    (hdel : Deletes e key) : key = read.storageKey := by
  obtain ⟨o, before, after⟩ := e
  cases o with
  | query q => cases hop
  | write action => cases hop
  | request r =>
    cases r with
    | purgeObject id' read' cutoff' =>
      cases hop
      obtain ⟨hbefore, hgone⟩ := hdel
      by_contra hne
      have hkept : after.objects.lookup key = before.objects.lookup key := by
        cases hc : commit ((Op.request (.purgeObject id read cutoff)).exec dep) before with
        | mk answer w =>
          have hw : after = w := hafter.trans (congrArg Prod.snd hc)
          subst hw
          cases answer with
          | error e => rw [(commit_error hc).1]
          | ok u =>
            have hret : Returns (Request.purgeObject id read cutoff).body before u after :=
              commit_ok hc
            rw [purgeObject_returns hret]
            exact AList.lookup_erase_ne hne
      exact hbefore (hkept.symm.trans hgone)
    | _ => cases hop

/-- The row of the candidate's key is the row that was read, or its project is gone. -/
theorem PurgeRead.row_of_key {w : World} (hi : w.Inv dep) {id : Uuid} {read : Artifact}
    {cutoff : Instant} (h : PurgeRead w id read cutoff) {id' : Uuid} {a : Artifact}
    (ha : w.db.artifacts.lookup id' = some a) (hkey : a.storageKey = read.storageKey) :
    id' = id := by
  obtain ⟨row, hrow⟩ | hgone := h.row.held
  · refine hi.db.stored.unique ha hrow (.inr ?_)
    rw [hkey, (h.row.later row hrow).same.storageKey]
  · -- the key names its project, so the row would belong to a project that is gone
    have hproject : a.projectId = read.projectId := by
      have hkeys := (hi.storage.keyed ha).symm.trans (hkey.trans h.row.keyed)
      simp only [artifactStorageKey, StorageKey.artifact.injEq] at hkeys
      exact hkeys.2.1
    obtain ⟨project, hlookup, -⟩ := hi.lifecycle.artifacts ha
    rw [hproject, hgone] at hlookup
    cases hlookup

theorem PurgeRead.honours {w : World} (hi : w.Inv dep) {id : Uuid} {read : Artifact}
    {cutoff : Instant} (h : PurgeRead w id read cutoff) (hcurrent : Current w id read)
    (hstored : w.objects.lookup read.storageKey ≠ none) :
    HonoursRetention w read.storageKey cutoff where
  past := h.past
  due ha hkey := by
    obtain rfl := h.row_of_key hi ha hkey
    rw [(hcurrent _ ha).1]
    exact h.due
  window {org projectId runId kind sha256 retentionUntil} hkey hkept := by
    have hproject : read.projectId = projectId := by
      have hkeys := h.row.keyed.symm.trans hkey
      simp only [artifactStorageKey, StorageKey.artifact.injEq] at hkeys
      exact hkeys.2.1
    subst hproject
    obtain ⟨row, hrow⟩ | hgone := h.row.held
    · obtain ⟨hsame, hleft⟩ := hcurrent row hrow
      have hlive : row.state ≠ .deleted := fun hdeleted => hstored (hleft hdeleted)
      have hown := (h.row.later row hrow).same.projectId
      exact (hi.storage.window hrow hlive (hown ▸ hkept)).trans (hsame ▸ h.due)
    · obtain ⟨project, requestedAt, n, hlookup, -⟩ := hkept
      rw [hgone] at hlookup
      cases hlookup

section Law

variable {memberships : List Membership} {cfg : ServiceConfig dep}

/-- Whoever runs what in between: when a purge deletes the object of a candidate whose
retention was not extended since it was read, the artifact is due, and so is its
project if it is kept for its deletion. -/
theorem retention_honoured (h : Reachable free (World.initial memberships) cfg)
    {j : Job (system dep (services dep))} (hj : j ∈ cfg.jobs)
    {e : Event (system dep (services dep))} (he : e ∈ j.history) {id : Uuid} {read : Artifact}
    {cutoff : Instant} (hop : e.op.purge? = some (id, read, cutoff))
    (hcurrent : Current e.before id read) {key : StorageKey} (hdel : Deletes e key) :
    HonoursRetention e.before key cutoff := by
  obtain ⟨hi, howes, hafter⟩ := events_owed h j hj e he
  have hkey := deletes_purge hop hafter hdel
  subst hkey
  exact (howes.purgeRead hop).honours hi hcurrent hdel.1

end Law

/-! ### A purge and a deletion request -/

/-- Call 4, a purge, has read the artifact as its candidate: its retention of thirty
days has run out. -/
def smallCandidate : List (Move Small) :=
  smallTombstone ++ .tick (.pass (seconds (31 * 24 * 60 * 60))) ::
    .start (ServiceCall.purgeArtifacts 10) :: acts Small 4 2

/-- Call 5 requests the deletion of the project, then the purge goes on. -/
def overtakenPurge : List (Move Small) :=
  smallCandidate ++ .start (ServiceCall.requestDeletion ⟨"owner", 1, none⟩ 0 "DELETE project") ::
    acts Small 5 2 ++ acts Small 4 1

/-- The only object goes. -/
theorem deletes_of_keys {e : Event Small} (hbefore : e.before.objects.keys = [smallKey])
    (hafter : e.after.objects.keys = []) : Deletes e smallKey := by
  refine ⟨fun hnone => ?_, ?_⟩
  · rw [AList.lookup_eq_none, AList.mem_keys, hbefore] at hnone
    simp at hnone
  · rw [AList.lookup_eq_none, AList.mem_keys, hafter]
    simp

theorem retention_honoured_due :
    ∃ e read cutoff, smallStep 4 (smallCandidate ++ acts Small 4 1) = some e ∧
      e.op.purge? = some (1, read, cutoff) ∧ HonoursRetention e.before smallKey cutoff := by
  have hstep : (smallStep 4 (smallCandidate ++ acts Small 4 1)).map (fun e =>
      (e.op.purge?.map fun p => (p.1, decide (Current e.before p.1 p.2.1)),
        e.before.objects.keys, e.after.objects.keys)) =
      some (some (1, true), [smallKey], []) := by
    decide +kernel
  obtain ⟨e, he, hstep⟩ := Option.map_eq_some_iff.mp hstep
  simp only [Prod.mk.injEq] at hstep
  obtain ⟨hop, hbefore, hafter⟩ := hstep
  obtain ⟨⟨id, read, cutoff⟩, hop, hpair⟩ := Option.map_eq_some_iff.mp hop
  simp only [Prod.mk.injEq, decide_eq_true_eq] at hpair
  obtain ⟨rfl, hcurrent⟩ := hpair
  obtain ⟨cfg, hreach, j, hj, hmem⟩ := smallStep_mem he
  exact ⟨e, read, cutoff, he, hop,
    retention_honoured hreach hj hmem hop hcurrent (deletes_of_keys hbefore hafter)⟩

/-- The deletion request that overtakes the purge keeps the project for thirty days; the
purge deletes its object at once. -/
theorem retention_overtaken :
    ¬ ∀ cfg : ServiceConfig .small, Reachable free (World.initial smallMembers) cfg →
      ∀ j ∈ cfg.jobs, ∀ e ∈ j.history, ∀ id read cutoff key,
        e.op.purge? = some (id, read, cutoff) → Deletes e key →
        HonoursRetention e.before key cutoff := by
  intro hclaim
  have hstep : (smallStep 4 overtakenPurge).map (fun e => (e.op.purge?.map fun p => (p.1, p.2.2),
      (e.before.objects.keys, e.after.objects.keys),
      (e.before.db.artifacts.lookup 1).map fun a => (a.storageKey, a.retentionUntil))) =
      some (some (1, 2678400000000), ([smallKey], []), some (smallKey, 5270400000000)) := by
    decide +kernel
  obtain ⟨e, he, hstep⟩ := Option.map_eq_some_iff.mp hstep
  simp only [Prod.mk.injEq] at hstep
  obtain ⟨hop, ⟨hbefore, hafter⟩, hrow⟩ := hstep
  obtain ⟨⟨id, read, cutoff⟩, hop, hpair⟩ := Option.map_eq_some_iff.mp hop
  obtain ⟨a, ha, hrow⟩ := Option.map_eq_some_iff.mp hrow
  simp only [Prod.mk.injEq] at hpair hrow
  obtain ⟨cfg, hreach, j, hj, hmem⟩ := smallStep_mem he
  have hdue := (hclaim cfg hreach j hj e hmem _ _ _ _ hop (deletes_of_keys hbefore hafter)).due ha hrow.1
  rw [hrow.2, hpair.2] at hdue
  exact absurd hdue (by decide)

end CorpusKit
