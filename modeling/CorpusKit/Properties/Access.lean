import CorpusKit.Library.Confinement
import CorpusKit.System.Obligations

/-! # Access

A person changes something only as a member of the organization whose role allows
it. Some transactions look the membership up themselves; the other calls read it
in an earlier session, and rely on memberships staying as they are. -/

namespace CorpusKit

open Transaction Program Interleaving

variable {dep : Deployment} {α β : Type} {memberships : List Membership}

/-! ## Members -/

/-- The person is a member of the organization with one of the roles. -/
def Grants (memberships : List Membership) (person : String × Uuid) (roles : Role → Bool) : Prop :=
  ∃ m ∈ memberships, m.subject = person.1 ∧ m.organizationId = person.2 ∧ roles m.role = true

/-- The roles of `require_admin`. -/
def isAdmin (role : Role) : Bool := role == .owner || role == .admin

theorem grants_of_find {subject : String} {org : Uuid} {m : Membership} {roles : Role → Bool}
    (h : memberships.find? (fun row => row.subject == subject && row.organizationId == org) = some m)
    (hrole : roles m.role = true) : Grants memberships (subject, org) roles := by
  have hm := List.find?_some h
  rw [Bool.and_eq_true, beq_iff_eq, beq_iff_eq] at hm
  exact ⟨m, List.mem_of_find?_eq_some h, hm.1, hm.2, hrole⟩

section Actors

variable {db db' : Db}

theorem JobControlPlane.actor_grants {who : JobActor} {r : Uuid × Role} {roles : Role → Bool}
    (h : Returns (actor who) db r db') (hrole : roles r.2 = true) :
    Grants db.memberships (who.subject, who.organizationId) roles := by
  unfold actor at h
  obtain ⟨a, s, hget, h⟩ := h.bind
  obtain ⟨rfl, rfl⟩ := hget.get
  obtain ⟨row, s, hfound, h⟩ := h.bind
  obtain ⟨hfind, rfl⟩ := hfound.found
  obtain ⟨rfl, -⟩ := h.pure
  exact grants_of_find hfind hrole

theorem RunManifestService.actor_grants {who : JobActor} {userId : Uuid}
    (h : Returns (actor who) db userId db') :
    Grants db.memberships (who.subject, who.organizationId) isWriter := by
  unfold actor at h
  obtain ⟨a, s, hget, h⟩ := h.bind
  obtain ⟨rfl, rfl⟩ := hget.get
  obtain ⟨row, s, hfound, h⟩ := h.bind
  obtain ⟨hfind, rfl⟩ := hfound.found
  obtain ⟨u, s, hreq, h⟩ := h.bind
  exact grants_of_find hfind (bne_iff_ne.mpr hreq.require.1)

theorem ArtifactService.authorizeScope_grants {who : ArtifactActor} {projectId : Uuid}
    {runId : Option Uuid} {operation : String} {userId : Uuid}
    (h : Returns (authorizeScope who projectId runId true operation) db userId db') :
    Grants db.memberships (who.subject, who.organizationId) isWriter := by
  unfold authorizeScope at h
  obtain ⟨a, s, hget, h⟩ := h.bind
  obtain ⟨rfl, rfl⟩ := hget.get
  obtain ⟨row, s, hfound, h⟩ := h.bind
  obtain ⟨hfind, rfl⟩ := hfound.found
  obtain ⟨u, s, hreq, h⟩ := h.bind
  obtain ⟨-, rfl⟩ := hreq.require
  obtain ⟨u, s, hreq, h⟩ := h.bind
  refine grants_of_find hfind (bne_iff_ne.mpr fun hviewer => ?_)
  exact hreq.require.1 ⟨rfl, hviewer⟩

namespace ProjectWorkspace

theorem actor_grants {who : WorkspaceActor} {r : Uuid × Role} {roles : Role → Bool}
    (h : Returns (actor who) db r db') (hrole : roles r.2 = true) :
    Grants db.memberships (who.subject, who.organizationId) roles := by
  unfold actor at h
  obtain ⟨a, s, hget, h⟩ := h.bind
  obtain ⟨rfl, rfl⟩ := hget.get
  obtain ⟨row, s, hfound, h⟩ := h.bind
  obtain ⟨hfind, rfl⟩ := hfound.found
  obtain ⟨rfl, -⟩ := h.pure
  exact grants_of_find hfind hrole

theorem requireWriter_returns {role : Role} {operation : String} {u : Unit}
    (h : Returns (requireWriter role operation) db u db') : isWriter role = true :=
  bne_iff_ne.mpr h.require.1

theorem requireAdmin_returns {role : Role} {operation : String} {u : Unit}
    (h : Returns (requireAdmin role operation) db u db') : isAdmin role = true := by
  obtain rfl | rfl := h.require.1 <;> rfl

end ProjectWorkspace

end Actors

/-! ## Who may do it -/

/-- The person for whom a transaction looks the membership up. -/
def Action.actor? {β : Type} : Action β → Option (String × Uuid)
  | .replay _ s _ => some (s.who.subject, s.who.organizationId)
  | .upload _ who _ _ _ _ => some (who.subject, who.organizationId)
  | .tombstone who _ _ _ => some (who.subject, who.organizationId)
  | .createProject who _ _ => some (who.subject, who.organizationId)
  | .createCorpus _ who _ _ _ _ => some (who.subject, who.organizationId)
  | .createVersion _ who _ _ _ _ _ => some (who.subject, who.organizationId)
  | .requestDeletion who _ _ _ _ => some (who.subject, who.organizationId)
  | _ => none

def Action.roles {β : Type} : Action β → Role → Bool
  | .requestDeletion .. => isAdmin
  | _ => isWriter

/-- The person a call comes from; workflow activities and maintenance come from none. -/
def ServiceCall.actor? : ServiceCall → Option (String × Uuid)
  | .submit who _ _ => some (who.subject, who.organizationId)
  | .retry who _ _ => some (who.subject, who.organizationId)
  | .submitReplay who _ _ _ _ => some (who.subject, who.organizationId)
  | .requestCancellation who _ => some (who.subject, who.organizationId)
  | .createArtifact who _ => some (who.subject, who.organizationId)
  | .tombstone who _ _ => some (who.subject, who.organizationId)
  | .createProject who _ => some (who.subject, who.organizationId)
  | .createCorpus who _ _ _ => some (who.subject, who.organizationId)
  | .createVersion who _ _ _ _ => some (who.subject, who.organizationId)
  | .requestDeletion who _ _ => some (who.subject, who.organizationId)
  | _ => none

def ServiceCall.roles : ServiceCall → Role → Bool
  | .requestDeletion .. => isAdmin
  | _ => isWriter

/-- The person the call comes from, if any, is a member with a role that allows it. -/
def ServiceCall.Authorized (memberships : List Membership) (c : ServiceCall) : Prop :=
  ∀ person, c.actor? = some person → Grants memberships person c.roles

theorem Action.granted {action : Action β} {b : β} {db db' : Db} {person : String × Uuid}
    (hactor : action.actor? = some person) (h : Returns (action.body dep) db b db') :
    Grants db.memberships person action.roles := by
  cases action <;> cases hactor
  case replay =>
    obtain ⟨userId, s, hread, -⟩ := Returns.bind h
    exact RunManifestService.actor_grants hread
  case upload =>
    obtain ⟨userId, s, hread, -⟩ := Returns.bind h
    exact ArtifactService.authorizeScope_grants hread
  case tombstone =>
    obtain ⟨userId, s, hread, -⟩ := Returns.bind h
    exact ArtifactService.authorizeScope_grants hread
  case createProject =>
    obtain ⟨⟨userId, role⟩, s, hread, h⟩ := Returns.bind h
    obtain ⟨u, t, hrole, -⟩ := h.bind
    exact ProjectWorkspace.actor_grants hread (ProjectWorkspace.requireWriter_returns hrole)
  case createCorpus =>
    obtain ⟨⟨userId, role⟩, s, hread, h⟩ := Returns.bind h
    obtain ⟨u, t, hrole, -⟩ := h.bind
    exact ProjectWorkspace.actor_grants hread (ProjectWorkspace.requireWriter_returns hrole)
  case createVersion =>
    obtain ⟨⟨userId, role⟩, s, hread, h⟩ := Returns.bind h
    obtain ⟨u, t, hrole, -⟩ := h.bind
    exact ProjectWorkspace.actor_grants hread (ProjectWorkspace.requireWriter_returns hrole)
  case requestDeletion =>
    obtain ⟨⟨userId, role⟩, s, hread, h⟩ := Returns.bind h
    obtain ⟨u, t, hrole, -⟩ := h.bind
    exact ProjectWorkspace.actor_grants hread (ProjectWorkspace.requireAdmin_returns hrole)

/-! ## Memberships stay -/

theorem Change.members {permit : Permit} {db db' : Db} (h : Change permit db db') :
    db'.memberships = db.memberships := by
  cases h <;> rfl

theorem Changes.members {permit : Permit} {db db' : Db} (h : Changes permit db db') :
    db'.memberships = db.memberships := by
  induction h with
  | refl => rfl
  | tail _ hstep ih => exact hstep.members.trans ih

theorem Op.members {o : Op β} {w w' : World} {b : β} (hi : w.Inv dep) (howes : o.Owes dep w)
    (h : Returns (o.exec dep) w b w') : w'.db.memberships = w.db.memberships := by
  cases o with
  | query q =>
    obtain ⟨-, rfl⟩ := query_returns h
    rfl
  | write action =>
    obtain ⟨db, hret, rfl⟩ := transact_returns h
    exact (action.changes hi.db howes hret).members
  | request r => rw [Request.db_eq h]

/-- The invariants of the world, with these memberships. -/
def World.Staffed (dep : Deployment) (memberships : List Membership) (w : World) : Prop :=
  w.Inv dep ∧ w.db.memberships = memberships

theorem World.Staffed.op {o : Op β} {w w' : World} {b : β} (hw : w.Staffed dep memberships)
    (howes : o.Owes dep w) (h : Returns (o.exec dep) w b w') : w'.Staffed dep memberships :=
  ⟨(Op.keeps hw.1 howes h).1, (Op.members hw.1 howes h).trans hw.2⟩

theorem World.Staffed.tick {t : Tick} {w : World} (hw : w.Staffed dep memberships) :
    (t.apply w).Staffed dep memberships :=
  ⟨(Tick.keeps t hw.1).1, by cases t <;> exact hw.2⟩

/-! ## Calls -/

/-- An operation that changes something is backed by the membership, or looks it up. -/
def Backed (memberships : List Membership) (c : ServiceCall) (β : Type) : Op β → Prop
  | .query _ => True
  | .write action =>
    (action.actor? = c.actor? ∧ action.roles = c.roles) ∨ c.Authorized memberships
  | .request _ => c.Authorized memberships

/-- The contract of a call among others that keep the invariants of the world. -/
def authorizing (dep : Deployment) (memberships : List Membership) (c : ServiceCall) :
    Contract (system dep (services dep)) where
  inv := World.Staffed dep memberships
  evolve _ _ := True
  may _ o w := Op.Owes dep w o
  must _ β o _ := Backed memberships c β o
  refl _ := trivial
  trans _ _ := trivial
  op hw howes _ h := ⟨hw.op howes h, trivial⟩
  tick hw := ⟨hw.tick, trivial⟩

section Calls

variable {c : ServiceCall} {past : List (Event (system dep (services dep)))} {w : World}

/-- What the call performs is backed, whatever it answers. -/
abbrev Backs (dep : Deployment) (memberships : List Membership) (c : ServiceCall) (p : Service α)
    (past : List (Event (system dep (services dep)))) (w : World) : Prop :=
  Sat (authorizing dep memberships c) (fun _ _ _ => True) (fun _ _ _ => True) p past w

theorem backs_authorized (h : c.Authorized memberships) (p : Service α) :
    Backs dep memberships c p past w :=
  Sat.free (C := authorizing dep memberships c) (fun _ _ o _ => by
    cases o with
    | query q => trivial
    | write action => exact .inr h
    | request r => exact h) p past w

theorem backs_all {p : Service α} (h : p.All (Backed memberships c)) :
    Backs dep memberships c p past w :=
  Sat.all (C := authorizing dep memberships c) (fun _ _ _ _ h _ _ => h) h past w

/-- A call from nobody needs no membership. -/
theorem ServiceCall.authorized_of_none (h : c.actor? = none) : c.Authorized memberships :=
  fun _ hperson => nomatch h.symm.trans hperson

/-- A program that goes on with the role it read, if that is a writer's. -/
theorem backs_actor {who : JobActor} {next : Uuid × Role → Service α}
    {e : Error} (hi : w.Staffed dep memberships)
    (h : Grants memberships (who.subject, who.organizationId) isWriter → c.Authorized memberships) :
    Backs dep memberships c (do
      let r ← read (JobControlPlane.actor who)
      Prog.require (isWriter r.2 = true) e
      next r) past w := by
  refine sat_read (C := authorizing dep memberships c) hi (fun _ _ => trivial)
    (fun v r db u _ _ hv hret _ _ => ?_) fun _ _ _ _ _ _ _ _ _ => trivial
  refine Sat.require (C := authorizing dep memberships c) (fun hrole => ?_) fun _ _ _ => trivial
  exact backs_authorized (h (hv.2 ▸ JobControlPlane.actor_grants hret hrole)) _

theorem backs_require {p : Prop} [Decidable p] {e : Error} {next : Unit → Service α}
    (h : Backs dep memberships c (next ()) past w) :
    Backs dep memberships c (Prog.require p e >>= next) past w :=
  Sat.require (C := authorizing dep memberships c) (fun _ => h) fun _ _ _ => trivial

theorem createArtifact_backs (who : ArtifactActor) (upload : ArtifactService.Upload)
    (hi : w.Staffed dep memberships) :
    Backs dep memberships (.createArtifact who upload) (ArtifactService.create dep who upload)
      past w := by
  refine backs_require ?_
  refine sat_read (C := authorizing dep memberships _) hi (fun _ _ => trivial)
    (fun v userId db u _ _ hv hret _ _ => ?_) fun _ _ _ _ _ _ _ _ _ => trivial
  refine backs_authorized (fun person hperson => ?_) _
  cases hperson
  exact hv.2 ▸ ArtifactService.authorizeScope_grants hret

theorem look_backed (f : World → β) : (look f).All (Backed memberships c) := .perform trivial

theorem read_backed (body : DbTx β) : (read body).All (Backed memberships c) := .perform trivial

theorem write_backed {action : Action β} (hactor : action.actor? = c.actor?)
    (hroles : action.roles = c.roles) : (write action).All (Backed memberships c) :=
  .perform (.inl ⟨hactor, hroles⟩)

/-- A transaction that is only given the time. -/
theorem timed_backed {action : Instant → Action α} (hactor : ∀ now, (action now).actor? = c.actor?)
    (hroles : ∀ now, (action now).roles = c.roles) :
    (clock >>= fun now => write (action now)).All (Backed memberships c) :=
  (look_backed _).bind fun now => write_backed (hactor now) (hroles now)

theorem submitReplay_backed (who : JobActor) (projectId sourceRunId : Uuid) (key : String)
    (stored : RunManifest) :
    (RunManifestService.submitReplay who projectId sourceRunId key stored).All
      (Backed memberships (.submitReplay who projectId sourceRunId key stored)) := by
  refine Prog.All.bind .require fun _ => (read_backed _).bind fun _ => ?_
  refine (read_backed _).bind fun source => ?_
  refine Prog.All.bind (p := RunManifestService.loadManifest _ _ _) ?_ fun expected =>
    (look_backed _).bind fun _ => timed_backed (fun _ => rfl) fun _ => rfl
  refine Prog.All.bind .require fun _ => (look_backed _).bind fun object => ?_
  exact Prog.All.bind .found fun object => Prog.All.bind .require fun _ => trivial

theorem prepare_backed (request : CorpusImportRequest) :
    (ProjectWorkspace.prepare dep request).All (Backed memberships c) := by
  unfold ProjectWorkspace.prepare
  split <;> trivial

theorem ServiceCall.backs (c : ServiceCall) (hi : w.Staffed dep memberships) :
    Backs dep memberships c (c.prog dep) [] w := by
  have hself (who : JobActor) (hactor : c.actor? = some (who.subject, who.organizationId))
      (hroles : c.roles = isWriter)
      (h : Grants memberships (who.subject, who.organizationId) isWriter) :
      c.Authorized memberships := by
    intro person hperson
    obtain rfl := Option.some.inj (hactor.symm.trans hperson)
    rw [hroles]
    exact h
  cases c with
  | submit who submission key =>
    refine backs_require (Sat.found (C := authorizing dep memberships _) (fun spec _ => ?_)
      fun _ _ _ => trivial)
    exact backs_actor hi (hself who rfl rfl)
  | retry who runId key => exact backs_require (backs_actor hi (hself who rfl rfl))
  | requestCancellation who runId => exact backs_actor hi (hself who rfl rfl)
  | createArtifact who upload => exact createArtifact_backs who upload hi
  | submitReplay who projectId sourceRunId key stored =>
    exact backs_all (submitReplay_backed who projectId sourceRunId key stored)
  | tombstone who projectId artifactId =>
    exact backs_all (timed_backed (fun _ => rfl) fun _ => rfl)
  | createProject who name => exact backs_all (timed_backed (fun _ => rfl) fun _ => rfl)
  | createCorpus who projectId name request =>
    exact backs_all ((prepare_backed request).bind fun _ => (look_backed _).bind fun _ =>
      timed_backed (fun _ => rfl) fun _ => rfl)
  | createVersion who projectId corpusId request operation =>
    exact backs_all ((prepare_backed request).bind fun _ => (look_backed _).bind fun _ =>
      timed_backed (fun _ => rfl) fun _ => rfl)
  | requestDeletion who projectId confirmation =>
    exact backs_all (timed_backed (fun _ => rfl) fun _ => rfl)
  | _ => exact backs_authorized (ServiceCall.authorized_of_none rfl) _

end Calls

/-! ## Every run -/

/-- A backed operation that changes something is authorized where it happens. -/
theorem Backed.authorized {c : ServiceCall} {o : Op β} {w : World}
    (h : Backed w.db.memberships c β o) (hchange : (commit (o.exec dep) w).2 ≠ w) :
    c.Authorized w.db.memberships := by
  cases o with
  | query q =>
    refine absurd ?_ hchange
    cases hc : commit ((Op.query q).exec dep) w with
    | mk r w' =>
      cases r with
      | error e => exact (commit_error hc).1
      | ok b => exact (query_returns (commit_ok hc)).2.symm
  | request r => exact h
  | write action =>
    obtain ⟨hactor, hroles⟩ | hauthorized := h
    · cases hc : commit ((Op.write action).exec dep) w with
      | mk r w' =>
        cases r with
        | error e =>
          rw [hc] at hchange
          exact absurd (commit_error hc).1 hchange
        | ok b =>
          obtain ⟨db, hret, -⟩ := transact_returns (commit_ok hc)
          intro person hperson
          exact hroles ▸ action.granted (hactor.trans hperson) hret
    · exact hauthorized

/-- What a call performs in a run of the services is backed. -/
theorem reachable_backed {G : Guard (system dep (services dep))} {cfg : ServiceConfig dep}
    (hG : ∀ {cfg j β} {o : Op β}, G cfg j β o → o.Owes dep cfg.world)
    (h : Reachable G (World.initial memberships) cfg) {j : Job (system dep (services dep))}
    (hj : j ∈ cfg.jobs) {o : Op β} {next : Except Error β → Service j.call.Value}
    (hrest : j.rest = some (.op o next)) (howes : o.Owes dep cfg.world) :
    cfg.world.db.memberships = memberships ∧ Backed memberships j.call β o := by
  have hstart : (World.initial memberships).Staffed dep memberships :=
    ⟨World.inv_initial dep memberships, rfl⟩
  have hI : Respects G (World.Staffed dep memberships) :=
    ⟨fun hw hlawful hret => hw.op (hG hlawful) hret, fun hw => hw.tick⟩
  have hR : Evolves G (World.Staffed dep memberships) fun _ _ => True :=
    ⟨fun _ => trivial, fun _ _ => trivial, fun _ _ _ => trivial, fun _ => trivial⟩
  have hnow := hI.reachable h hstart
  have hsat := (authorizing dep memberships j.call).sound_among (fun c => c = j.call)
    (fun _ _ _ _ => True) (fun _ _ _ _ => True) hI hR (fun _ hlawful => hG hlawful)
    (fun c w hc hw => by
      subst hc
      exact j.call.backs hw) h hstart j hj rfl _ hrest
  exact ⟨hnow.2, (hsat cfg.world trivial hnow howes).1⟩

/-- **Authorization.** Whatever other calls do in between, an operation of a person's call that
changes anything at all is backed by a membership of that person in the organization, with a
role that allows the call. -/
theorem changes_authorized {cfg : ServiceConfig dep}
    (h : Reachable (M := system dep (services dep)) free (World.initial memberships) cfg)
    {j : Job (system dep (services dep))} (hj : j ∈ cfg.jobs)
    {e : Event (system dep (services dep))} (he : e ∈ j.history) (hchange : e.after ≠ e.before) :
    j.call.Authorized memberships := by
  have hG : ∀ {cfg : ServiceConfig dep} {j β} {o : Op β},
      (base dep (services dep)).lawful free cfg j β o → o.Owes dep cfg.world := fun h => h.2.2
  refine calls_hold (M := system dep (services dep))
    (P := fun c e => e.after ≠ e.before → ServiceCall.Authorized memberships c)
    (fun hs hmem hrest hlawful hne => ?_) (lawful_reachable h) j hj e he hchange
  obtain ⟨hmembers, hbacked⟩ := reachable_backed hG hs hmem hrest (hG hlawful)
  rw [← hmembers] at hbacked ⊢
  exact hbacked.authorized hne

/-- The latest operation of call 1 is the owner's, and draws the first identifier. -/
def createsProject (cfg : Config Small) : Bool :=
  cfg.jobs[1]?.any fun j => j.history.head?.any fun e =>
    j.call.actor? == some ("owner", 1) && e.before.db.nextId == 0 && e.after.db.nextId == 1

def createdProject : Sampled (smallRun smallProject) createsProject := .of (by decide +kernel)

theorem changes_authorized_owner :
    ∃ cfg, smallRun smallProject = some cfg ∧ ∃ j ∈ cfg.jobs, ∃ e ∈ j.history,
      e.after ≠ e.before ∧ j.call.actor? = some ("owner", 1) ∧ j.call.Authorized smallMembers := by
  obtain ⟨j, hj, hcreates⟩ := (Option.any_eq_true _ _).mp createdProject.checked
  obtain ⟨e, he, hcreates⟩ := (Option.any_eq_true _ _).mp hcreates
  simp only [Bool.and_eq_true, beq_iff_eq] at hcreates
  obtain ⟨⟨hactor, hbefore⟩, hafter⟩ := hcreates
  have hj := List.mem_of_getElem? hj
  have he := List.mem_of_head? he
  have hchange : e.after ≠ e.before := by
    intro hsame
    rw [hsame, hbefore] at hafter
    cases hafter
  exact ⟨createdProject.cfg, createdProject.run, j, hj, e, he, hchange, hactor,
    changes_authorized (smallRun_reachable createdProject.run) hj he hchange⟩

end CorpusKit
