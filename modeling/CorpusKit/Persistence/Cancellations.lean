import CorpusKit.Persistence.Evolution

/-! # What the evidence of a cancellation shows

Every audit event of a cancellation records the state the run was moved to, and
as long as the run exists it has an event for its cancellation. The invariant is
kept because events of runs stay and audit events are only appended. -/

namespace CorpusKit

/-- The audited cancellations of a database. -/
structure Db.Cancellations (db : Db) : Prop where
  recorded : ∀ {key event}, db.auditEvents.lookup key = some event →
    event.action = .runCancellationRequested →
    event.details = [("prior_state", .text RunState.cancelling.value)]
  known : ∀ {key event}, db.auditEvents.lookup key = some event →
    event.action = .runCancellationRequested → event.resourceId < db.nextId
  shown : ∀ {key event run}, db.auditEvents.lookup key = some event →
    event.action = .runCancellationRequested → db.runs.lookup event.resourceId = some run →
    ∃ n e, 1 < n ∧ db.runEvents.lookup (event.resourceId, n) = some e ∧
      e.payload.state = some .cancelling

variable {db db' : Db} {permit : Permit}

/-- Where an audit event of a cancellation is new, it shows it. -/
theorem Db.Cancellations.later (h : db.Cancellations) (hl : db.Later db')
    (hnew : ∀ {key event}, db'.auditEvents.lookup key = some event →
      event.action = .runCancellationRequested →
      db.auditEvents.lookup key = some event ∨ db.ShowsCancellation event ∧
        event.resourceId < db.nextId) : db'.Cancellations where
  recorded he hcancel := by
    rcases hnew he hcancel with hold | ⟨hshown, -⟩
    · exact h.recorded hold hcancel
    · exact hshown.1
  known he hcancel := by
    rcases hnew he hcancel with hold | ⟨-, hid⟩
    · exact Nat.lt_of_lt_of_le (h.known hold hcancel) hl.next
    · exact Nat.lt_of_lt_of_le hid hl.next
  shown he hcancel hrun := by
    rcases hnew he hcancel with hold | ⟨⟨-, run, n, e, -, hn, hevent, hstate⟩, hid⟩
    · have hid := h.known hold hcancel
      obtain ⟨run, hrun', -⟩ := hl.runs _ _ hrun hid
      obtain ⟨n, e, hn, hevent, hstate⟩ := h.shown hold hcancel hrun'
      exact ⟨n, e, hn, hl.events hevent hid hrun, hstate⟩
    · exact ⟨n, e, hn, hl.events hevent hid hrun, hstate⟩

theorem Change.cancellations (hc : Change permit db db') (hi : db.Inv) (h : db.Cancellations) :
    db'.Cancellations := by
  have hl := hc.later
  cases hc with
  | evidence event hhead hfree hplain hshown =>
    refine h.later hl fun he hcancel => ?_
    rcases Table.lookup_insert_cases he with ⟨-, rfl⟩ | ⟨-, hold⟩
    · obtain ⟨run, n, e, hrun, -⟩ := (hshown hcancel).2
      exact .inr ⟨hshown hcancel, hi.log.fresh _ _ hrun⟩
    · exact .inl hold
  | adopt time mediaType schemaId hrun hstate hask hfree horg hevent hres hown hactive hkept hsize
      hplace hkeyed hscope hkey hpolicy husage hcount hbytes hhead hfirst hsecond hadopted hsucceeded =>
    refine h.later hl fun he hcancel => ?_
    rcases Table.lookup_insert_cases he with ⟨-, rfl⟩ | ⟨-, he⟩
    · rw [hsucceeded.1] at hcancel
      cases hcancel
    rcases Table.lookup_insert_cases he with ⟨-, rfl⟩ | ⟨-, hold⟩
    · rw [hadopted.1] at hcancel
      cases hcancel
    · exact .inl hold
  | submit hpermit hproject hkey hstate hseq hasked hsummary hpolicy husage hslot hadmits horg hhead
      hfree haudit =>
    refine h.later hl fun he hcancel => ?_
    rcases Table.lookup_insert_cases he with ⟨-, rfl⟩ | ⟨-, hold⟩
    · rw [hcancel] at haudit
      exact absurd haudit.2 (by decide)
    · exact .inl hold
  | _ => exact h.later hl fun he _ => .inl he

theorem Changes.cancellations (hc : Changes permit db db') (hi : db.Inv) (h : db.Cancellations) :
    db'.Cancellations := by
  induction hc with
  | refl => exact h
  | tail hs hstep ih => exact hstep.cancellations (Changes.inv hs hi) ih

theorem Db.cancellations_initial (memberships : List Membership) :
    (Db.initial memberships).Cancellations where
  recorded he := (Table.not_mem_empty he).elim
  known he := (Table.not_mem_empty he).elim
  shown he := (Table.not_mem_empty he).elim

end CorpusKit
