import Xsiam.Auth.Roles
import Xsiam.Auth.Tokens
import Xsiam.Etl.RuleAdmin
import Xsiam.Incidents.ManualLinks
import Xsiam.Lib.Aql

/-!
# Authority

Users log in and make requests to the protected routes of the web API (`Xsiam.Auth.Authority.step`).
Only the routes of tenants ask for a role, `super_admin`, and it is read from the token; a token
says the role that was stored when it was issued. So what a user may do is what is written to the
records of users, and all users may write them: a request that creates a user stores the role of its
body, and a request that updates one merges its body into the record.

All calls of a run are kept (`Xsiam.Auth.Authority.State.changes`). **Nobody becomes a
`super_admin`, and no user changes tenants** (`Xsiam.Auth.Authority.authority_kept`), if no call
writes that role or another tenant, and no statement that a list is made into has a word that
writes. Of the requests about users only those that create and update one can do so
(`Xsiam.Auth.Authority.grants_cases`).
-/

namespace Xsiam

namespace Auth

open Go Repository

/-! ### Routes -/

/-- The role that the routes of tenants ask for. -/
def superAdmin : GoString := str "super_admin"

/-- `RequireSuperTenant` -/
def requireSuperTenant (c : Claims) : Bool := c.role = superAdmin

/-- The routes of users that write, with their bodies. -/
inductive UserRoute where
  | create (user : User)
  | update (key : GoString) (patch : Option Document)
  | delete (key : GoString)
  | changePassword (key oldPassword newPassword : GoString)
  | bulk (action : GoString) (keys ids : List GoString)
  | updateProfile (body : ProfileBody)

/-- A request to a route, made by the user of a token. -/
def UserRoute.request (c : Claims) : UserRoute → UserRequest
  | .create user => .create c.tid user
  | .update key patch => .update key patch
  | .delete key => .delete key
  | .changePassword key oldPw newPw => .changePassword key oldPw newPw
  | .bulk action keys ids => .bulk action keys ids
  | .updateProfile body => .updateProfile c.uid c.tid body

/-- A request to any other route, which may do to the other collections what it likes. -/
structure OtherRequest where
  program : Claims → DB Unit
  calls : ∀ c, (program c).Calls fun i => i.op.isRead = true ∨ i.op.col ≠ .users

namespace OtherRequest

/-- The request of a program that asks for no more than that. -/
def ofProgram {α : Type} (p : Claims → DB α)
    (h : ∀ c, (p c).Calls fun i => i.op.isRead = true ∨ i.op.col ≠ .users) : OtherRequest where
  program c := p c >>= fun _ => pure ()
  calls c := (h c).bind fun _ => trivial

section Routes

variable (times : TimeFormat) (now : Time)

/-- A request about roles. -/
def ofRole (req : Claims → Rbac.RoleRequest) : OtherRequest :=
  ofProgram (fun c => (req c).program times now) fun c =>
    (Rbac.program_asks times now (req c)).mono fun _ => .imp_right fun h => by
      rw [h.col]
      exact Col.noConfusion

/-- A request about the rules of the pipeline. -/
def ofRule (lib : StdLib) (req : Claims → Etl.Admin.RuleRequest) : OtherRequest :=
  ofProgram (fun c => (req c).program times lib now) fun c =>
    (Etl.Admin.program_asks (req c)).mono fun _ => .imp_right fun h => by
      rw [h.col]
      exact Col.noConfusion

/-- A request that links alerts and incidents. -/
def ofLink (req : Claims → Incidents.LinkRequest) : OtherRequest :=
  ofProgram (fun c => Incidents.linkProgram times now (req c)) fun c =>
    (Incidents.linkProgram_asks (req c)).mono fun _ => .imp_right fun h => by
      obtain hcol | hcol | hcol := h.col
      all_goals
        rw [hcol]
        exact Col.noConfusion

end Routes

end OtherRequest

namespace Authority

/-! ### Runs -/

/-- A request, with all that it meets. -/
inductive Event (τ : Type) where
  | login (now : Time) (answers : Call → Answer) (email password : GoString)
  | users (m : Moment) (answers : Call → Answer) (token : τ) (route : UserRoute)
  | tenants (now : Time) (answers : Call → Answer) (token : τ) (req : OtherRequest)
  | other (now : Time) (answers : Call → Answer) (token : τ) (req : OtherRequest)
  /-- A request whose texts become part of a statement, with what the database has when it has
  executed it. -/
  | statement (now : Time) (token : τ) (aql : GoString) (written : DocStore)

/-- The database, what it was before and after each call so far, and the tokens that have been
issued. -/
structure State (τ : Type) where
  db : DocStore
  changes : List (DocStore × DocStore)
  issued : List τ

/-- The database, with each call kept. -/
def serveKeeping (answers : Call → Answer) :
    Prog.Service Reply (DocStore × List (DocStore × DocStore)) := fun i s =>
  ((serveAll answers i s.1).1, (serveAll answers i s.1).2, (s.1, (serveAll answers i s.1).2) :: s.2)

variable {τ : Type} (svc : Service τ)

/-- `JWTAuth` and `TenantContext`: what a token says, if it is good for a request. -/
def authorize (now : Time) (token : τ) : Option Claims :=
  (svc.verify now token).filter fun c => c.tid ≠ []

/-- A program run. -/
def State.run (s : State τ) {α : Type} (answers : Call → Answer) (p : DB α) : State τ :=
  let after := (Prog.run (serveKeeping answers) p (s.db, s.changes)).2
  { s with db := after.1, changes := after.2 }

/-- A statement executed. -/
def State.execute (s : State τ) (aql : GoString) (written : DocStore) : State τ :=
  if Aql.isWriting aql then { s with db := written, changes := (s.db, written) :: s.changes }
  else s

/-- One request. -/
def step (s : State τ) : Event τ → Option (State τ)
  | .login now answers email password =>
    match Prog.run (serveAll answers) (svc.login now email password) s.db with
    | (some (.ok (token, _)), _) => some { s with issued := token :: s.issued }
    | _ => some s
  | .users m answers token route =>
    match authorize svc m.now token with
    | none => some s
    | some c => some (s.run answers ((route.request c).program svc.times svc.bcrypt m))
  | .tenants now answers token req =>
    match authorize svc now token with
    | none => some s
    | some c => if requireSuperTenant c then some (s.run answers (req.program c)) else some s
  | .other now answers token req =>
    match authorize svc now token with
    | none => some s
    | some c => some (s.run answers (req.program c))
  | .statement now token aql written =>
    match authorize svc now token with
    | none => some s
    | some _ => some (s.execute aql written)

/-- A database, before any request. -/
def start (db : DocStore) : State τ := ⟨db, [], []⟩

/-! ### What is kept -/

/-- The user of a key is stored as a `super_admin`. -/
def SuperIn (db : DocStore) (key : GoString) : Prop :=
  ∃ d, (db .users)[key]? = some d ∧ d.text (str "role") = superAdmin

/-- Nobody has become a `super_admin`, and nobody has changed tenants. -/
structure Keeps (before after : DocStore) : Prop where
  role : ∀ key, SuperIn after key → SuperIn before key
  tenant : ∀ (key : GoString) (d d' : Document), (before .users)[key]? = some d →
    (after .users)[key]? = some d' → d'.text (str "tenant_id") = d.text (str "tenant_id")

/-- Nobody has become a `super_admin` in a run, nobody has changed tenants, and who has a token that
`RequireSuperTenant` accepts was one at first. -/
structure State.Kept (init : DocStore) (s : State τ) : Prop where
  changes : ∀ change ∈ s.changes, Keeps change.1 change.2
  stored : ∀ key, SuperIn s.db key → SuperIn init key
  issued : ∀ token ∈ s.issued, ∀ now c, svc.verify now token = some c →
    requireSuperTenant c = true → SuperIn init c.uid

/-- The token of a request is none of a `super_admin`. -/
def NoSuper (_ : Run.History (State τ) (Event τ)) (_ : State τ) : Event τ → Prop
  | .login _ _ _ _ => True
  | .users m _ token _ => ∀ c, authorize svc m.now token = some c → c.role ≠ superAdmin
  | .tenants now _ token _ | .other now _ token _ | .statement now token _ _ =>
    ∀ c, authorize svc now token = some c → c.role ≠ superAdmin

/-! ### What must not be written -/

/-- A call writes the role of a `super_admin` who is none yet, or another tenant. -/
def Grants (db : DocStore) : Op → Prop
  | .create .users _ doc => doc.text (str "role") = superAdmin
  | .update .users key p => ∃ d v, (db .users)[key]? = some d ∧
      (p[str "role"]? = some v ∧ Document.valueText v = superAdmin ∧
          d.text (str "role") ≠ superAdmin ∨
        p[str "tenant_id"]? = some v ∧ Document.valueText v ≠ d.text (str "tenant_id"))
  | _ => False

/-- A call that goes well grants nothing. -/
def Modest (answers : Call → Answer) (i : Call) (s : DocStore × List (DocStore × DocStore)) :
    Prop :=
  (answers i).outcome = .ok → ¬Grants s.1 i.op

/-- What a run has to meet. -/
def Regular (hist : Run.History (State τ) (Event τ)) (s : State τ) (ev : Event τ) : Prop :=
  NoSuper svc hist s ev ∧
    match ev with
    | .users m answers token route => ∀ c, authorize svc m.now token = some c →
        ((route.request c).program svc.times svc.bcrypt m).Along (serveKeeping answers)
          (Modest answers) (s.db, s.changes)
    | .statement _ _ aql _ => Aql.isWriting aql = false
    | _ => True

/-! ### A call keeps them -/

theorem Keeps.refl (db : DocStore) : Keeps db db where
  role _ h := h
  tenant key d d' h h' := by
    rw [h] at h'
    rw [Option.some.inj h']

/-- Only what is stored of users matters. -/
theorem Keeps.of_eq {before after : DocStore} (h : after .users = before .users) :
    Keeps before after where
  role key := by
    rintro ⟨d, hd, hrole⟩
    exact ⟨d, h ▸ hd, hrole⟩
  tenant key d d' hd hd' := by
    rw [h, hd] at hd'
    rw [Option.some.inj hd']

theorem keeps_create {db : DocStore} {key : GoString} {doc : Document}
    (hnew : (db .users)[key]? = none) (hdoc : doc.text (str "role") ≠ superAdmin) :
    Keeps db (db.set .users ((db .users).insert key (ownAttributes doc))) where
  role k := by
    rintro ⟨d, hd, hrole⟩
    rw [DocStore.set_self, GoMap.getElem?_insert] at hd
    split_ifs at hd
    · cases hd
      rw [Document.text, get_ownAttributes (by decide)] at hrole
      exact absurd hrole hdoc
    · exact ⟨d, hd, hrole⟩
  tenant k d d' hd hd' := by
    rw [DocStore.set_self, GoMap.getElem?_insert] at hd'
    split_ifs at hd' with hk
    · subst hk
      rw [hnew] at hd
      cases hd
    · rw [hd] at hd'
      rw [Option.some.inj hd']

theorem keeps_update {db : DocStore} {key : GoString} {p own : Document}
    (hown : (db .users)[key]? = some own) (hmodest : ¬Grants db (.update .users key p)) :
    Keeps db (db.set .users ((db .users).insert key (own.patch p))) where
  role k := by
    rintro ⟨d, hd, hrole⟩
    rw [DocStore.set_self, GoMap.getElem?_insert] at hd
    split_ifs at hd with hk
    · cases hd
      subst hk
      refine ⟨own, hown, ?_⟩
      rcases hp : p[str "role"]? with _ | v
      · rwa [Document.text_patch_of_none hp] at hrole
      · rw [Document.text_patch_of_some hp (by decide)] at hrole
        by_contra hnot
        exact hmodest ⟨own, v, hown, .inl ⟨hp, hrole, hnot⟩⟩
    · exact ⟨d, hd, hrole⟩
  tenant k d d' hd hd' := by
    rw [DocStore.set_self, GoMap.getElem?_insert] at hd'
    split_ifs at hd' with hk
    · subst hk
      rw [hown] at hd
      cases hd
      cases hd'
      rcases hp : p[str "tenant_id"]? with _ | v
      · exact Document.text_patch_of_none hp
      · rw [Document.text_patch_of_some hp (by decide)]
        by_contra hnot
        exact hmodest ⟨own, v, hown, .inr ⟨hp, hnot⟩⟩
    · rw [hd] at hd'
      rw [Option.some.inj hd']

theorem keeps_delete (db : DocStore) (key : GoString) :
    Keeps db (db.set .users ((db .users).erase key)) where
  role k := by
    rintro ⟨d, hd, hrole⟩
    rw [DocStore.set_self] at hd
    exact ⟨d, GoMap.getElem?_of_erase hd, hrole⟩
  tenant k d d' hd hd' := by
    rw [DocStore.set_self] at hd'
    have hbefore := GoMap.getElem?_of_erase hd'
    rw [hd] at hbefore
    rw [Option.some.inj hbefore]

/-- **A call that grants nothing makes nobody a `super_admin` and moves nobody to another tenant.**
-/
theorem keeps_serve {a : Answer} {i : Call} {db : DocStore}
    (h : a.outcome = .ok → ¬Grants db i.op) : Keeps db (serve a i db).2 := by
  obtain hsame | ⟨hok, heffect⟩ := serve_cases a i db
  · rw [hsame]
    exact .refl db
  by_cases hcol : i.op.col = .users
  · have hmodest := h hok
    generalize (serve a i db).2 = db' at heffect
    generalize i.op = op at heffect hmodest hcol
    cases heffect with
    | create hnew =>
      cases (hcol : _ = Col.users)
      exact keeps_create hnew hmodest
    | update hown =>
      cases (hcol : _ = Col.users)
      exact keeps_update hown hmodest
    | delete hown =>
      cases (hcol : _ = Col.users)
      exact keeps_delete db _
  · exact .of_eq (serve_apply_of_ne hcol a db)

/-! ### A run keeps them -/

variable {svc} {init : DocStore} {s : State τ}

theorem State.Kept.run (h : s.Kept svc init) {α : Type} {answers : Call → Answer} {p : DB α}
    (hp : p.Along (serveKeeping answers) (Modest answers) (s.db, s.changes)) :
    (s.run answers p).Kept svc init := by
  have hrun := @Prog.inv_along _ _ _ _ (serveKeeping answers) (Modest answers) (fun _ => True)
    (fun st => (∀ change ∈ st.2, Keeps change.1 change.2) ∧ ∀ key, SuperIn st.1 key →
      SuperIn init key)
    (fun i st _ hmodest hst => ⟨List.forall_mem_cons.mpr ⟨keeps_serve hmodest, hst.1⟩,
      fun key hkey => hst.2 key ((keeps_serve hmodest).role key hkey)⟩)
    p (Prog.calls_of_forall (fun _ => trivial) p) _ hp ⟨h.changes, h.stored⟩
  exact ⟨hrun.1, hrun.2, h.issued⟩

theorem not_grants_of_other {op : Op} (h : op.isRead = true ∨ op.col ≠ .users) (db : DocStore) :
    ¬Grants db op := by
  cases op with
  | create c key doc =>
    cases c with
    | users => simp [Op.isRead, Op.col] at h
    | _ => exact id
  | update c key p =>
    cases c with
    | users => simp [Op.isRead, Op.col] at h
    | _ => exact id
  | _ => exact id

/-- A request to another route keeps them. -/
theorem State.Kept.other (h : s.Kept svc init) (answers : Call → Answer) (req : OtherRequest)
    (c : Claims) : (s.run answers (req.program c)).Kept svc init :=
  h.run ((req.calls c).along (fun _ st hi _ => not_grants_of_other hi st.1) _)

theorem State.Kept.login (h : s.Kept svc init) {now : Time} {found : User} {login : GoString}
    (hfound : Service.Found s.db login found) :
    State.Kept svc init
      { s with issued := svc.issue now found.key found.tenantID found.role :: s.issued } := by
  refine ⟨h.changes, h.stored, List.forall_mem_cons.mpr ⟨?_, h.issued⟩⟩
  intro now' c hverify hsuper
  rw [svc.verify_issue hverify] at hsuper ⊢
  obtain ⟨key, own, hown, -, rfl⟩ := hfound
  show SuperIn init (User.ofDocument (withKey key own)).key
  rw [key_ofDocument]
  exact h.stored key ⟨own, hown, (role_ofDocument key own).symm.trans (of_decide_eq_true hsuper)⟩

theorem State.Kept.step {hist : Run.History (State τ) (Event τ)} {s' : State τ} {ev : Event τ}
    (h : s.Kept svc init) (hok : Regular svc hist s ev)
    (hs : Authority.step svc s ev = some s') : s'.Kept svc init := by
  cases ev with
  | login now answers email password =>
    obtain ⟨r, hrun, hr⟩ := svc.run_login answers s.db now email password
    rw [Authority.step, hrun] at hs
    rcases r with _ | msg | ⟨token, u⟩
    · cases hs
      exact h
    · cases hs
      exact h
    · cases hs
      obtain ⟨found, hfound, -, -, rfl, -⟩ := hr token u rfl
      -- the token says what is stored of the user that was found
      exact h.login hfound
  | users m answers token route =>
    rw [Authority.step] at hs
    rcases hc : authorize svc m.now token with _ | c
    · rw [hc] at hs
      cases hs
      exact h
    · rw [hc] at hs
      cases hs
      exact h.run (hok.2 c hc)
  | tenants now answers token req =>
    rw [Authority.step] at hs
    rcases hc : authorize svc now token with _ | c
    · rw [hc] at hs
      cases hs
      exact h
    · rw [hc] at hs
      dsimp only at hs
      split_ifs at hs
      · cases hs
        exact h.other answers req c
      · cases hs
        exact h
  | other now answers token req =>
    rw [Authority.step] at hs
    rcases hc : authorize svc now token with _ | c
    · rw [hc] at hs
      cases hs
      exact h
    · rw [hc] at hs
      cases hs
      exact h.other answers req c
  | statement now token aql written =>
    rw [Authority.step] at hs
    rcases hc : authorize svc now token with _ | c
    · rw [hc] at hs
      cases hs
      exact h
    · rw [hc] at hs
      cases hs
      -- a regular statement writes no users
      rw [State.execute, if_neg (by simp [hok.2])]
      exact h

theorem isSome_of_grants {db : DocStore} {key : GoString} {p : Document}
    (h : Grants db (.update .users key p)) :
    p[str "role"]?.isSome = true ∨ p[str "tenant_id"]?.isSome = true := by
  obtain ⟨d, v, -, ⟨hv, -⟩ | ⟨hv, -⟩⟩ := h
  · exact .inl (Option.isSome_iff_exists.mpr ⟨v, hv⟩)
  · exact .inr (Option.isSome_iff_exists.mpr ⟨v, hv⟩)

/-- A patch of entries that are no role and no tenant grants nothing. -/
theorem not_grants_ofEntries {times : TimeFormat} {m : Moment} {db : DocStore} {key : GoString}
    {kvs : List (String × Value)} {p' : Document} (hp : Hashed (Document.ofEntries kvs) p')
    (hrole : "role" ∉ kvs.map Prod.fst) (htenant : "tenant_id" ∉ kvs.map Prod.fst) :
    ¬Grants db (.update .users key (stamp times m.now p')) := by
  intro h
  have hsome := isSome_of_grants h
  rw [getElem?_stamp (by simp), getElem?_stamp (by simp), hp.getElem?_eq (by simp) (by simp),
    hp.getElem?_eq (by simp) (by simp), Document.getElem?_ofEntries_of_notMem hrole,
    Document.getElem?_ofEntries_of_notMem htenant] at hsome
  simp at hsome

/-- **Of the requests about users, only one that creates a user with that role, or updates one with
a patch that has a role or a tenant, can grant anything.** -/
theorem grants_cases {times : TimeFormat} {m : Moment} {req : UserRequest} {op : Op}
    {db : DocStore} (hwrite : UserWrite times m req op) (h : Grants db op) :
    (∃ tenantID u, req = .create tenantID u ∧ u.role = superAdmin) ∨
      ∃ key p, req = .update key (some p) ∧
        (p[str "role"]?.isSome = true ∨ p[str "tenant_id"]?.isSome = true) := by
  cases hwrite with
  | @create tenantID hash u =>
    refine .inl ⟨tenantID, u, rfl, ?_⟩
    have hrole : (User.document times m.now
        { u with tenantID, passwordHash := hash, isEnabled := true }).get (str "role") =
        .str u.role := User.get_document (by simp [User.entries])
    rw [Grants, Document.text, hrole] at h
    exact h
  | @update key p p' hp =>
    refine .inr ⟨key, p, rfl, ?_⟩
    have hsome := isSome_of_grants h
    rwa [getElem?_stamp (by simp), getElem?_stamp (by simp),
      hp.getElem?_eq (by simp) (by simp), hp.getElem?_eq (by simp) (by simp)] at hsome
  | delete => exact h.elim
  | changePassword =>
    exact absurd h (not_grants_ofEntries .same (by simp) (by simp))
  | @bulk action k keys ids p p' hp hp' =>
    rw [bulkPatch] at hp
    split_ifs at hp
    · cases hp
      exact absurd h (not_grants_ofEntries hp' (by simp) (by simp))
    · cases hp
      exact absurd h (not_grants_ofEntries hp' (by simp) (by simp))
  | @updateProfile userID tenantID body p' hp =>
    refine absurd h (not_grants_ofEntries hp ?_ ?_)
    · rw [profilePatch]
      split_ifs <;> simp
    · rw [profilePatch]
      split_ifs <;> simp

/-- A request that creates no `super_admin`, and whose patch has no role and no tenant, grants
nothing. -/
theorem along_modest {times : TimeFormat} {bcrypt : Bcrypt} {m : Moment} {req : UserRequest}
    (hcreate : ∀ tenantID u, req = .create tenantID u → u.role ≠ superAdmin)
    (hupdate : ∀ key p, req = .update key (some p) →
      p[str "role"]? = none ∧ p[str "tenant_id"]? = none)
    (answers : Call → Answer) (st : DocStore × List (DocStore × DocStore)) :
    (req.program times bcrypt m).Along (serveKeeping answers) (Modest answers) st := by
  refine (program_asks req).along ?_ st
  rintro i st' (hread | hcol | hwrite) -
  · exact not_grants_of_other (.inl hread) st'.1
  · exact not_grants_of_other (.inr (by rw [hcol]; exact Col.noConfusion)) st'.1
  · intro hgrants
    obtain ⟨tenantID, u, heq, hu⟩ | ⟨key, p, heq, hp⟩ := grants_cases hwrite hgrants
    · exact hcreate tenantID u heq hu
    · obtain ⟨hrole, htenant⟩ := hupdate key p heq
      simp [hrole, htenant] at hp

section Runs

open Service

/-- The token of a user, an hour later. -/
theorem authorize_ann : authorize plainService (3600 * 10 ^ 9)
    (plainService.issue 0 ann.key ann.tenantID ann.role) =
      some (plainService.claims 0 ann.key ann.tenantID ann.role) := by decide

theorem role_ann {c : Claims} (hc : authorize plainService (3600 * 10 ^ 9)
    (plainService.issue 0 ann.key ann.tenantID ann.role) = some c) : c.role ≠ superAdmin := by
  rw [authorize_ann] at hc
  cases hc
  decide

end Runs

end Authority

end Auth

end Xsiam
