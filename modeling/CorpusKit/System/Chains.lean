import CorpusKit.System.Obligations

/-! # Runs as chains of changes

What one change of the database does, from a database with its invariants, a whole
run does, if it composes. -/

namespace CorpusKit

open Transaction Interleaving

variable {R : Db → Db → Prop}

/-- What each change does to a database with its invariants, and what composes. -/
structure Composes (R : Db → Db → Prop) : Prop where
  refl : ∀ db, R db db
  trans : ∀ {a b c}, R a b → R b c → R a c
  change : ∀ {permit : Permit} {db db' : Db}, Change permit db db' → db.Inv → R db db'

theorem Composes.changes (hR : Composes R) {permit : Permit} {db db' : Db}
    (h : Changes permit db db') (hi : db.Inv) : R db db' ∧ db'.Inv := by
  induction h with
  | refl => exact ⟨hR.refl _, hi⟩
  | tail _ hchange ih => exact ⟨hR.trans ih.1 (hR.change hchange ih.2), hchange.inv ih.2⟩

variable {dep : Deployment} {memberships : List Membership}

theorem Composes.op (hR : Composes R) {β : Type} {w w' : World} {o : Op β} {b : β}
    (hi : w.Inv dep) (howes : o.Owes dep w) (h : Returns (o.exec dep) w b w') : R w.db w'.db := by
  cases o with
  | query q =>
    obtain ⟨-, rfl⟩ := query_returns h
    exact hR.refl _
  | write action =>
    obtain ⟨db, hret, rfl⟩ := transact_returns h
    exact (hR.changes (action.changes hi.db howes hret) hi.db).1
  | request r =>
    rw [Request.db_eq h]
    exact hR.refl _

theorem Composes.tick (hR : Composes R) (t : Tick) (w : World) : R w.db (t.apply w).db := by
  cases t <;> exact hR.refl _

/-- **Along every run.** -/
theorem Composes.run (hR : Composes R) {cfg cfg' : ServiceConfig dep}
    (h : Reachable (M := system dep (services dep)) free (World.initial memberships) cfg)
    (hrun : Relation.ReflTransGen (Step free) cfg cfg') : R cfg.world.db cfg'.world.db := by
  have hI : Respects ((base dep (services dep)).lawful free) (World.Inv dep) :=
    ⟨fun hi hG hret => (Op.keeps hi hG.2.2 hret).1, fun hi => (Tick.keeps _ hi).1⟩
  have hevolves : Evolves ((base dep (services dep)).lawful free) (World.Inv dep)
      fun w w' => R w.db w'.db :=
    ⟨fun _ => hR.refl _, hR.trans, fun hi hG hret => hR.op hi hG.2.2 hret,
      fun _ => hR.tick _ _⟩
  exact hevolves.steps hI (lawful_run h hrun) (reachable_inv h)

end CorpusKit
