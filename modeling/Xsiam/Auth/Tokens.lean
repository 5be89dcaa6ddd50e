import Xsiam.Auth.Users

/-!
# Tokens

`Service` of `internal/svc/auth`, which issues, verifies and renews tokens, and `AuthService.Login`
of `internal/domain/auth`, which logs a user in with it and looks the user up once more.
-/

namespace Xsiam

namespace Auth

open Go Repository

/-- `Claims` -/
structure Claims where
  uid : GoString
  tid : GoString
  role : GoString
  issuedAt : Time
  expiresAt : Time
deriving DecidableEq

/-- The JWT library: it accepts exactly the tokens signed with the secret that have not expired. -/
structure JwtLib (τ : Type) where
  sign : GoString → Claims → τ
  parse : GoString → Time → τ → Option Claims
  parse_eq_some : ∀ secret now t c,
    parse secret now t = some c ↔ t = sign secret c ∧ now < c.expiresAt

/-- `Service` -/
structure Service (τ : Type) where
  times : TimeFormat
  bcrypt : Bcrypt
  jwt : JwtLib τ
  secret : GoString
  expireHr : ℤ

namespace Service

variable {τ : Type} (svc : Service τ)

/-- The hours a token is good for, as `New` sets them. -/
def hours : ℤ := if svc.expireHr ≤ 0 then 24 else svc.expireHr

/-- `jwt.NewNumericDate`, which has no fractions of a second. -/
def numericDate (t : Time) : Time := t / 10 ^ 9 * 10 ^ 9

/-- The claims of a new token. The duration in hours is cut to 64 bits. -/
def claims (now : Time) (uid tid role : GoString) : Claims where
  uid := uid
  tid := tid
  role := role
  issuedAt := numericDate now
  expiresAt := numericDate (now + (svc.hours * (3600 * 10 ^ 9)).bmod (2 ^ 64))

/-- `Issue` -/
def issue (now : Time) (uid tid role : GoString) : τ :=
  svc.jwt.sign svc.secret (svc.claims now uid tid role)

/-- `Verify` -/
def verify (now : Time) (t : τ) : Option Claims := svc.jwt.parse svc.secret now t

/-- `Refresh` -/
def refresh (now : Time) (t : τ) : Option τ :=
  (svc.verify now t).map fun c => svc.issue now c.uid c.tid c.role

/-- `isTransientDBError` -/
def isTransientDBError (msg : GoString) : Bool :=
  contains msg (str "connection refused") || contains msg (str "dial tcp") ||
    contains msg (str "EOF") || contains msg (str "connection reset")

/-- The loop of `Login` that looks a user up again, as long as the database is not there. -/
def retry (email : GoString) : ℕ → Except GoString User → DB (Except GoString User)
  | 0, r => pure r
  | n + 1, .error msg =>
    if isTransientDBError msg then do
      let r ← getByEmail svc.times email [0, 3 - n]
      retry email n r
    else pure (.error msg)
  | _ + 1, .ok user => pure (.ok user)

/-- `Login` -/
def login (now : Time) (email password : GoString) : DB (Except GoString (τ × User)) := do
  let first ← getByEmail svc.times email [0]
  match ← svc.retry email 3 first with
  | .error _ => pure (.error (str "invalid credentials"))
  | .ok user =>
    if !user.isEnabled then pure (.error (str "account disabled"))
    else if !svc.bcrypt.compare user.passwordHash password then
      pure (.error (str "invalid credentials"))
    else pure (.ok (svc.issue now user.key user.tenantID user.role, { user with passwordHash := [] }))

/-- `LoginResp` -/
structure LoginResp (τ : Type) where
  token : τ
  user : User

/-- `AuthService.Login`, in one process with the service. -/
def authLogin (now : Time) (email password : GoString) : DB (Except GoString (LoginResp τ)) := do
  match ← svc.login now email password with
  | .error msg => pure (.error msg)
  | .ok (token, _) =>
    match ← getByEmail svc.times email [1] with
    | .error msg => pure (.error msg)
    | .ok user => pure (.ok ⟨token, { user with passwordHash := [] }⟩)

/-- Two claims are not signed alike. -/
theorem sign_inj {c c' : Claims} (h : svc.jwt.sign svc.secret c = svc.jwt.sign svc.secret c') :
    c = c' := by
  -- at a time when neither has expired, the token is read as both
  have hlt : min c.expiresAt c'.expiresAt - 1 < c.expiresAt :=
    (sub_one_lt _).trans_le (min_le_left ..)
  have hlt' : min c.expiresAt c'.expiresAt - 1 < c'.expiresAt :=
    (sub_one_lt _).trans_le (min_le_right ..)
  have hread := (svc.jwt.parse_eq_some svc.secret _ _ c).mpr ⟨rfl, hlt⟩
  have hread' := (svc.jwt.parse_eq_some svc.secret _ _ c').mpr ⟨rfl, hlt'⟩
  rw [h, hread'] at hread
  exact (Option.some.inj hread).symm

/-- A token that is accepted says what it was issued with. -/
theorem verify_issue {now now' : Time} {uid tid role : GoString} {c : Claims}
    (h : svc.verify now' (svc.issue now uid tid role) = some c) : c = svc.claims now uid tid role :=
  svc.sign_inj ((svc.jwt.parse_eq_some ..).mp h).1.symm

/-! ### What a login finds -/

/-- A user that is found under a login name. -/
def Found (db : DocStore) (login : GoString) (u : User) : Prop :=
  ∃ key own, (db .users)[key]? = some own ∧ hasLogin login own = true ∧
    u = .ofDocument (withKey key own)

variable (answers : Call → Answer) (db : DocStore)

theorem run_getByEmail (times : TimeFormat) (login : GoString) (place : List ℕ) :
    ∃ r, Prog.run (serveAll answers) (getByEmail times login place) db = (r, db) ∧
      ∀ u, r = some (.ok u) → Found db login u := by
  rw [getByEmail, Prog.run_bind, run_findDoc]
  rcases (answers (Call.mk (.find .users (hasLogin login)) place)).outcome with _ | msg | _
  · rcases hfirst : (matching (answers (Call.mk (.find .users (hasLogin login)) place)).order
      (db .users) (hasLogin login)).head? with _ | d
    · exact ⟨_, rfl, nofun⟩
    · obtain ⟨key, own, hown, hlogin, rfl⟩ := mem_matching_iff.mp (List.mem_of_head? hfirst)
      by_cases hreads : (withKey key own).Reads times userFields
      · simp only [hreads, if_true]
        refine ⟨_, rfl, ?_⟩
        rintro u hu
        cases hu
        exact ⟨key, own, hown, hlogin, rfl⟩
      · simp only [hreads, if_false]
        exact ⟨_, rfl, nofun⟩
  · exact ⟨_, rfl, nofun⟩
  · exact ⟨_, rfl, nofun⟩

theorem run_retry (email : GoString) (n : ℕ) : ∀ {r : Except GoString User},
    (∀ u, r = .ok u → Found db email u) →
      ∃ r', Prog.run (serveAll answers) (svc.retry email n r) db = (r', db) ∧
        ∀ u, r' = some (.ok u) → Found db email u := by
  induction n with
  | zero => exact fun {r} hr => ⟨some r, rfl, fun u hu => hr u (Option.some.inj hu)⟩
  | succ n ih =>
    rintro (msg | user) hr
    · rw [retry]
      split_ifs
      · obtain ⟨again, hrun, hagain⟩ := run_getByEmail answers db svc.times email [0, 3 - n]
        rw [Prog.run_bind, hrun]
        rcases again with _ | r'
        · exact ⟨none, rfl, nofun⟩
        · exact ih fun u hu => hagain u (congrArg some hu)
      · exact ⟨_, rfl, nofun⟩
    · exact ⟨_, rfl, fun u hu => hr u (Option.some.inj hu)⟩

/-- **A login leaves the database as it is, and where it succeeds it has found a user that is
enabled and has the password, and issues a token with the user's key, tenant and role.** -/
theorem run_login (now : Time) (email password : GoString) :
    ∃ r, Prog.run (serveAll answers) (svc.login now email password) db = (r, db) ∧
      ∀ token u, r = some (.ok (token, u)) → ∃ found, Found db email found ∧
        found.isEnabled = true ∧ svc.bcrypt.compare found.passwordHash password = true ∧
        token = svc.issue now found.key found.tenantID found.role ∧
        u = { found with passwordHash := [] } := by
  obtain ⟨first, hfirst, hfound⟩ := run_getByEmail answers db svc.times email [0]
  rw [login, Prog.run_bind, hfirst]
  rcases first with _ | first
  · exact ⟨none, rfl, nofun⟩
  obtain ⟨r, hretry, hr⟩ := svc.run_retry answers db email 3
    fun u hu => hfound u (congrArg some hu)
  show ∃ r, Prog.run (serveAll answers) (svc.retry email 3 first >>= _) db = (r, db) ∧ _
  rw [Prog.run_bind, hretry]
  rcases r with _ | msg | user
  · exact ⟨none, rfl, nofun⟩
  · exact ⟨_, rfl, nofun⟩
  · by_cases henabled : user.isEnabled = true
    · by_cases hpassword : svc.bcrypt.compare user.passwordHash password = true
      · simp only [henabled, hpassword, Bool.not_true, Bool.false_eq_true, if_false]
        refine ⟨_, rfl, ?_⟩
        rintro token u heq
        cases heq
        exact ⟨user, hr user rfl, henabled, hpassword, rfl, by rw [← henabled]⟩
      · simp only [henabled, hpassword, Bool.not_true, Bool.not_false, Bool.false_eq_true, if_false,
          if_true]
        exact ⟨_, rfl, nofun⟩
    · simp only [henabled, Bool.not_false, if_true]
      exact ⟨_, rfl, nofun⟩

/-- **The token of a login is one user's that has the login name, and the record is one's too.** -/
theorem run_authLogin (now : Time) (email password : GoString) :
    ∃ r, Prog.run (serveAll answers) (svc.authLogin now email password) db = (r, db) ∧
      ∀ resp, r = some (.ok resp) → ∃ found found', Found db email found ∧ Found db email found' ∧
        resp.token = svc.issue now found.key found.tenantID found.role ∧
        resp.user = { found' with passwordHash := [] } := by
  obtain ⟨r, hlogin, hr⟩ := svc.run_login answers db now email password
  rw [authLogin, Prog.run_bind, hlogin]
  rcases r with _ | msg | ⟨token, u⟩
  · exact ⟨none, rfl, nofun⟩
  · exact ⟨_, rfl, nofun⟩
  obtain ⟨found, hfound, -, -, htoken, -⟩ := hr token u rfl
  obtain ⟨again, hagain, hsecond⟩ := run_getByEmail answers db svc.times email [1]
  show ∃ r, Prog.run (serveAll answers) (getByEmail svc.times email [1] >>= _) db = (r, db) ∧ _
  rw [Prog.run_bind, hagain]
  rcases again with _ | msg | user
  · exact ⟨none, rfl, nofun⟩
  · exact ⟨_, rfl, nofun⟩
  · refine ⟨_, rfl, ?_⟩
    rintro resp hresp
    cases hresp
    exact ⟨found, user, hfound, hsecond user rfl, htoken, rfl⟩

/-! ### A service to compute with -/

/-- A password and a hash of it. -/
def knownPassword : GoString := str "abc123xyz"

def knownHash : GoString := str "$2a$12$R9h/cIPz0gi.URNNX3kh2OPST9/PgBkqquzi.Ss7KIUgO2t0jWMUW"

/-- The library, on that password and that hash. -/
def knownBcrypt : Bcrypt where
  generate _ pw := if pw = knownPassword then some knownHash else none
  compare hash pw := hash = knownHash ∧ pw = knownPassword

/-- Tokens that are read as they are written. -/
def plainJwt : JwtLib (GoString × Claims) where
  sign secret c := (secret, c)
  parse secret now t := if t.1 = secret ∧ now < t.2.expiresAt then some t.2 else none
  parse_eq_some secret now t c := by
    constructor
    · intro h
      split_ifs at h with hok
      cases h
      exact ⟨Prod.ext hok.1 rfl, hok.2⟩
    · rintro ⟨rfl, hlt⟩
      exact if_pos ⟨rfl, hlt⟩

/-- A service with tokens of a day. -/
def plainService : Service (GoString × Claims) where
  times := epochTimes
  bcrypt := knownBcrypt
  jwt := plainJwt
  secret := str "secret"
  expireHr := 24

/-- A user with that password. -/
def ann : User where
  key := str "u-1"
  tenantID := str "t-1"
  username := str "ann"
  email := str "ann@example.com"
  passwordHash := knownHash
  role := str "analyst"
  isEnabled := true

/-- A database with that user alone. -/
def annStore : DocStore :=
  DocStore.set (fun _ => ∅) .users ((∅ : GoMap Document).insert ann.key (ann.document epochTimes 0))

end Service

end Auth

end Xsiam
