import Xsiam.Auth.Tokens

/-!
# Login names

A user is looked up under a login name, which is an e-mail address or a user name, in all tenants,
and any one user who has it is taken. A login looks twice: for the token, and for the record that is
returned with it. So a name has to be one user's, and the requests that write users do not see to
it: none of them looks for the name before it writes.

The requests run together, one call to the database at a time. **A name is one user's**, and a login
with it is that user's (`Xsiam.Auth.login_names`), as long as every name that a call writes is no
other user's at that moment, and what it writes can be read.
-/

namespace Xsiam

namespace Auth

open Go Repository

/-! ### Accounts -/

/-- A login name is one user's, and every user can be read. -/
structure Accounts (times : TimeFormat) (db : DocStore) : Prop where
  unique : ∀ (login key key' : GoString) (own own' : Document), (db .users)[key]? = some own →
    (db .users)[key']? = some own' → hasLogin login own = true → hasLogin login own' = true →
      key = key'
  readable : ∀ (key : GoString) (own : Document), (db .users)[key]? = some own →
    (withKey key own).Reads times userFields

/-- A name that is written is no other user's. -/
def NamesFree (db : DocStore) (key : GoString) (written : Document) : Prop :=
  ∀ (login key' : GoString) (own' : Document), hasLogin login written = true → key' ≠ key →
    (db .users)[key']? = some own' → hasLogin login own' = false

/-- What a call that goes well writes to the users takes nobody's name, and leaves a user that can
be read. -/
def TakesNoName (times : TimeFormat) (db : DocStore) (a : Answer) : Op → Prop
  | .create .users key doc => NamesFree db (newKey a key) doc
  | .update .users key p => NamesFree db key p ∧ ∀ own : Document, (db .users)[key]? = some own →
      (withKey key (own.patch p)).Reads times userFields
  | _ => True

variable {times : TimeFormat} {m : Moment} {db : DocStore}

theorem hasLogin_iff {login : GoString} {d : Document} : hasLogin login d = true ↔
    d.get (str "email") = .str login ∨ d.get (str "username") = .str login := by
  simp [hasLogin]

/-- A name of a user that is patched was written, or was the user's before. -/
theorem hasLogin_patch {login : GoString} {own p : Document}
    (h : hasLogin login (own.patch p) = true) :
    hasLogin login p = true ∨ hasLogin login own = true := by
  have hname : ∀ name, name ∉ Document.systemNames → (own.patch p).get name = .str login →
      p.get name = .str login ∨ own.get name = .str login := by
    intro name hsystem hget
    rcases hp : p[name]? with _ | v
    · rw [Document.get_patch_of_none hp] at hget
      exact .inr hget
    · rw [Document.get_patch_of_some hp hsystem] at hget
      refine .inl ?_
      rw [Document.get, hp]
      exact mergeValue_eq_str_iff.mp hget
  rw [hasLogin_iff, hasLogin_iff]
  obtain hemail | huser := hasLogin_iff.mp h
  · exact (hname _ (by decide) hemail).imp .inl .inl
  · exact (hname _ (by decide) huser).imp .inr .inr

theorem hasLogin_ownAttributes (login : GoString) (d : Document) :
    hasLogin login (ownAttributes d) = hasLogin login d := by
  rw [hasLogin, hasLogin, get_ownAttributes (by decide), get_ownAttributes (by decide)]

/-- One user written whose names are no other user's. -/
theorem Accounts.insert (h : Accounts times db) {key : GoString} {d : Document}
    (hfree : ∀ (login key' : GoString) (own' : Document), hasLogin login d = true → key' ≠ key →
      (db .users)[key']? = some own' → hasLogin login own' = false)
    (hreads : (withKey key d).Reads times userFields) :
    Accounts times (db.set .users ((db .users).insert key d)) where
  unique := by
    rw [DocStore.set_self]
    refine GoMap.unique_insert h.unique fun login k own hlogin hne hk => ?_
    rw [hfree login k own hlogin hne hk]
    exact Bool.false_ne_true
  readable := by
    rw [DocStore.set_self]
    exact GoMap.Each.insert h.readable hreads

theorem Accounts.erase (h : Accounts times db) (key : GoString) :
    Accounts times (db.set .users ((db .users).erase key)) where
  unique := by
    rw [DocStore.set_self]
    exact GoMap.unique_erase h.unique key
  readable := by
    rw [DocStore.set_self]
    exact GoMap.Each.erase h.readable key

/-- A user that is created can be read. -/
theorem reads_created (now : Time) (u : User) (key : GoString) :
    (withKey key (ownAttributes (u.document times now))).Reads times userFields := by
  have haccepts : ∀ (name : String) v (k : Kind), str name ∉ Document.systemNames →
      (name, v) ∈ u.entries times now → k.accepts times v = true →
      k.accepts times ((withKey key (ownAttributes (u.document times now))).get (str name)) =
        true := by
    rintro name v k hsystem hmem hv
    have hkey : str name ≠ keyName := fun h => hsystem (h ▸ List.mem_cons_self)
    rwa [get_withKey, if_neg hkey, get_ownAttributes hsystem, User.get_document hmem]
  have hhash : Kind.text.accepts times
      ((withKey key (ownAttributes (u.document times now))).get (str "password_hash")) = true := by
    by_cases h : u.passwordHash = []
    · rw [get_withKey, if_neg (by decide), get_ownAttributes (by decide), Document.get,
        User.document, Document.getElem?_ofEntries_of_notMem]
      · rfl
      · simp [User.entries, User.hashEntry, h]
    · exact haccepts _ (.str u.passwordHash) _ (by decide) (by simp [User.entries, User.hashEntry, h])
        rfl
  rw [Document.reads_iff]
  simp only [userFields, List.forall_mem_cons, List.not_mem_nil, false_imp_iff, implies_true, and_true]
  refine ⟨?_, haccepts _ (.str u.tenantID) _ ?_ ?_ rfl, haccepts _ (.str u.username) _ ?_ ?_ rfl,
    haccepts _ (.str u.email) _ ?_ ?_ rfl, hhash, haccepts _ (.str u.role) _ ?_ ?_ rfl,
    haccepts _ (.str u.displayName) _ ?_ ?_ rfl, haccepts _ (.bool u.isEnabled) _ ?_ ?_ rfl,
    haccepts _ .null _ ?_ ?_ rfl,
    haccepts _ (.str (times.text now)) _ ?_ ?_ (times.reads_text now),
    haccepts _ (.str (times.text now)) _ ?_ ?_ (times.reads_text now)⟩
  · rw [get_withKey, if_pos (by decide)]
    rfl
  all_goals first | decide | simp [User.entries]

/-- **A call whose names are free leaves every name one user's.** -/
theorem accounts_serve {req : UserRequest} {a : Answer} {i : Call} (hask : Asks times m req i)
    (hfree : a.outcome = .ok → TakesNoName times db a i.op) (h : Accounts times db) :
    Accounts times (serve a i db).2 := by
  obtain hsame | ⟨hok, heffect⟩ := serve_cases a i db
  · rwa [hsame]
  specialize hfree hok
  obtain hread | hcol | hwrite := hask
  · rwa [serve_of_isRead hread]
  · have husers : (serve a i db).2 .users = db .users :=
      serve_apply_of_ne (by rw [hcol]; exact Col.noConfusion) a db
    exact ⟨by rw [husers]; exact h.unique, by rw [husers]; exact h.readable⟩
  · generalize (serve a i db).2 = db' at heffect
    generalize i.op = op at heffect hfree hwrite
    cases heffect with
    | @create c key doc hnew =>
      cases hwrite
      refine h.insert (fun login key' own' hlogin hne hown' => ?_) (reads_created ..)
      exact hfree login key' own' (by rwa [hasLogin_ownAttributes] at hlogin) hne hown'
    | @update c key p own hown =>
      have hcol : c = .users := by cases hwrite <;> rfl
      subst hcol
      refine h.insert (fun login key' own' hlogin hne hown' => ?_) (hfree.2 own hown)
      obtain hwritten | hbefore := hasLogin_patch hlogin
      · exact hfree.1 login key' own' hwritten hne hown'
      · exact Bool.eq_false_of_not_eq_true fun hlogin' =>
          hne (h.unique login key' key own' own hown' hown hlogin' hbefore)
    | @delete c key d hd =>
      cases hwrite
      exact h.erase key

/-! ### What a login does then -/

variable {τ : Type} {svc : Service τ}

/-- A name that is one user's finds that user. -/
theorem run_getByEmail_of_unique (h : Accounts times db) {key : GoString} {own : Document}
    (hown : (db .users)[key]? = some own) {login : GoString} (hlogin : hasLogin login own = true)
    {answers : Call → Answer} (hok : ∀ i, (answers i).outcome = .ok) (place : List ℕ) :
    Prog.run (serveAll answers) (getByEmail times login place) db =
      (some (.ok (.ofDocument (withKey key own))), db) := by
  have hfirst : (matching (answers (Call.mk (.find .users (hasLogin login)) place)).order
      (db .users) (hasLogin login)).head? = some (withKey key own) := by
    have hmem : withKey key own ∈ matching
        (answers (Call.mk (.find .users (hasLogin login)) place)).order (db .users)
        (hasLogin login) := mem_matching_iff.mpr ⟨key, own, hown, hlogin, rfl⟩
    obtain ⟨d, hd⟩ := Option.isSome_iff_exists.mp
      (List.isSome_head?.mpr (List.ne_nil_of_mem hmem))
    obtain ⟨key', own', hown', hlogin', rfl⟩ := mem_matching_iff.mp (List.mem_of_head? hd)
    -- whoever is found is that user
    obtain rfl := h.unique login key key' own own' hown hown' hlogin hlogin'
    rw [hown] at hown'
    cases hown'
    exact hd
  rw [getByEmail, Prog.run_bind, run_findDoc, hok]
  simp only [hfirst, h.readable key own hown, if_true]
  rfl

/-- Logins are their users': who has the name and the password gets in, and the token and the record
are one user's. -/
structure LoginsOwn (svc : Service τ) (db : DocStore) : Prop where
  own : ∀ (now : Time) (answers : Call → Answer) (login password key : GoString) (d : Document),
    (∀ i, (answers i).outcome = .ok) → (db .users)[key]? = some d → hasLogin login d = true →
      (User.ofDocument (withKey key d)).isEnabled = true →
      svc.bcrypt.compare (User.ofDocument (withKey key d)).passwordHash password = true →
      ∃ resp, Prog.run (serveAll answers) (svc.authLogin now login password) db =
        (some (.ok resp), db) ∧ resp.user.key = key ∧
        resp.token = svc.issue now key (d.text (str "tenant_id")) (d.text (str "role"))
  same : ∀ (now : Time) (answers : Call → Answer) (login password : GoString)
    (resp : Service.LoginResp τ) (db' : DocStore),
    Prog.run (serveAll answers) (svc.authLogin now login password) db = (some (.ok resp), db') →
      ∃ key d, (db .users)[key]? = some d ∧ hasLogin login d = true ∧ resp.user.key = key ∧
        resp.token = svc.issue now key (d.text (str "tenant_id")) (d.text (str "role"))

theorem loginsOwn_of_accounts (h : Accounts svc.times db) : LoginsOwn svc db where
  own now answers login password key d hok hd hlogin henabled hpassword := by
    have hget := fun place => run_getByEmail_of_unique h hd hlogin hok place
    refine ⟨⟨svc.issue now key (d.text (str "tenant_id")) (d.text (str "role")),
      { User.ofDocument (withKey key d) with passwordHash := [] }⟩, ?_, key_ofDocument key d, rfl⟩
    have hrun : Prog.run (serveAll answers) (svc.login now login password) db =
        (some (.ok (svc.issue now key (d.text (str "tenant_id")) (d.text (str "role")),
          { User.ofDocument (withKey key d) with passwordHash := [] })), db) := by
      rw [Service.login, Prog.run_bind, hget]
      show Prog.run (serveAll answers) (svc.retry login 3 (.ok _) >>= _) db = _
      rw [Service.retry, Prog.run_bind]
      simp only [Prog.pure_eq, Prog.run_done, henabled, hpassword, Bool.not_true,
        Bool.false_eq_true, if_false, key_ofDocument, tenantID_ofDocument, role_ofDocument]
    rw [Service.authLogin, Prog.run_bind, hrun]
    show Prog.run (serveAll answers) (getByEmail svc.times login [1] >>= _) db = _
    rw [Prog.run_bind, hget]
    rfl
  same now answers login password resp db' hrun := by
    obtain ⟨r, hlogin, hr⟩ := svc.run_authLogin answers db now login password
    rw [hlogin] at hrun
    obtain ⟨found, found', ⟨key, d, hd, hname, rfl⟩, ⟨key', d', hd', hname', rfl⟩, htoken, huser⟩ :=
      hr resp (Prod.mk.inj hrun).1
    obtain rfl := h.unique login key key' d d' hd hd' hname hname'
    rw [hd] at hd'
    cases hd'
    rw [key_ofDocument, tenantID_ofDocument, role_ofDocument] at htoken
    exact ⟨key, d, hd, hname, by rw [huser]; exact key_ofDocument key d, htoken⟩

/-! ### Requests that run together -/

/-- A request, with the moment at which it is made. -/
abbrev TimedRequest := Moment × UserRequest

/-- The program of a request. -/
def TimedRequest.program (svc : Service τ) (r : TimedRequest) : DB (Response Unit) :=
  r.2.program svc.times svc.bcrypt r.1

/-- What a run has to meet: no call takes a name. -/
def FreeNames (svc : Service τ) (_ : Run.History (Prog.Pool Reply TimedRequest DocStore (Response Unit))
    (Prog.Pool.Event TimedRequest Answer))
    (s : Prog.Pool Reply TimedRequest DocStore (Response Unit)) :
    Prog.Pool.Event TimedRequest Answer → Prop :=
  s.Meets fun db _ a i => a.outcome = .ok → TakesNoName svc.times db a i.op

section Runs

open Service

/-- A request that creates a user with these names, and the password. -/
def createNamed (name email : String) : TimedRequest :=
  ({}, .create (str "t-1")
    { username := str name, email := str email, passwordHash := knownPassword })

/-- What has none of the names of the one user takes no name. -/
theorem namesFree_annStore {key : GoString} {written : Document}
    (hname : hasLogin ann.username written = false) (hemail : hasLogin ann.email written = false) :
    NamesFree annStore key written := by
  intro login key' own' hlogin _ hown'
  rw [annStore, DocStore.set_self, Std.ExtTreeMap.getElem?_insert] at hown'
  split_ifs at hown' with hkey
  · cases hown'
    refine Bool.eq_false_of_not_eq_true fun hlogin' => ?_
    -- the name would be one of the two that the user has
    obtain h | h := hasLogin_iff.mp hlogin'
    · rw [User.get_document (v := .str ann.email) (by simp [User.entries])] at h
      cases h
      rw [hemail] at hlogin
      cases hlogin
    · rw [User.get_document (v := .str ann.username) (by simp [User.entries])] at h
      cases h
      rw [hname] at hlogin
      cases hlogin
  · simp at hown'

theorem accounts_annStore : Accounts epochTimes annStore := by
  have hempty : Accounts epochTimes fun _ => ∅ :=
    ⟨fun _ _ _ _ _ h => absurd h (by simp), fun _ _ h => absurd h (by simp)⟩
  exact hempty.insert (fun _ _ _ _ _ h => absurd h (by simp)) (by decide +kernel)

end Runs

end Auth

end Xsiam
