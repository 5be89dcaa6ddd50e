import Xsiam.Repository.Calls

/-!
# Users

`model.User` and `UserProfile`, their repositories, and `UserService` and `UserHandler` of
`internal/domain/auth`, as programs on the database. A request is one that has a body that could
be bound; a body that cannot be is refused before anything is called.
-/

namespace Xsiam

namespace Auth

open Go Repository

/-! ### Records -/

/-- The fields of `model.User`. -/
def userFields : Fields :=
  [(str "_key", .text), (str "tenant_id", .text), (str "username", .text), (str "email", .text),
    (str "password_hash", .text), (str "role", .text), (str "display_name", .text),
    (str "is_enabled", .flag), (str "last_login_at", .time), (str "created_at", .time),
    (str "updated_at", .time)]

/-- `model.User`, without its dates. -/
structure User where
  key : GoString := []
  tenantID : GoString := []
  username : GoString := []
  email : GoString := []
  passwordHash : GoString := []
  role : GoString := []
  displayName : GoString := []
  isEnabled : Bool := false
deriving DecidableEq

/-- A user as it is read from a document. -/
def User.ofDocument (d : Document) : User where
  key := d.text (str "_key")
  tenantID := d.text (str "tenant_id")
  username := d.text (str "username")
  email := d.text (str "email")
  passwordHash := d.text (str "password_hash")
  role := d.text (str "role")
  displayName := d.text (str "display_name")
  isEnabled := d.flag (str "is_enabled")

section OfDocument

variable (key : GoString) (own : Document)

theorem key_ofDocument : (User.ofDocument (withKey key own)).key = key := by
  simp [User.ofDocument, Document.text, keyName, Document.valueText]

theorem tenantID_ofDocument :
    (User.ofDocument (withKey key own)).tenantID = own.text (str "tenant_id") := by
  simp [User.ofDocument, Document.text, keyName]

theorem role_ofDocument : (User.ofDocument (withKey key own)).role = own.text (str "role") := by
  simp [User.ofDocument, Document.text, keyName]

theorem isEnabled_ofDocument :
    (User.ofDocument (withKey key own)).isEnabled = own.flag (str "is_enabled") := by
  simp [User.ofDocument, Document.flag, keyName]

end OfDocument

/-- The hash as it is written; an empty one is left out. -/
def User.hashEntry (u : User) : List (String × Value) :=
  if u.passwordHash = [] then [] else [("password_hash", .str u.passwordHash)]

/-- The attributes of a user as they are written. -/
def User.entries (times : TimeFormat) (now : Time) (u : User) : List (String × Value) :=
  ("tenant_id", .str u.tenantID) :: ("username", .str u.username) :: ("email", .str u.email) ::
    (u.hashEntry ++ [("role", Value.str u.role), ("display_name", .str u.displayName),
      ("is_enabled", .bool u.isEnabled), ("last_login_at", .null),
      ("created_at", .str (times.text now)), ("updated_at", .str (times.text now))])

/-- A user as it is written to a document. -/
def User.document (times : TimeFormat) (now : Time) (u : User) : Document :=
  Document.ofEntries (u.entries times now)

theorem User.get_document {times : TimeFormat} {now : Time} {u : User} {name : String} {v : Value}
    (h : (name, v) ∈ u.entries times now) : (u.document times now).get (str name) = v := by
  refine Document.get_ofEntries ?_ h
  rw [User.entries, User.hashEntry]
  split_ifs
  · simp
  · simp

/-- The fields of `model.UserProfile`. -/
def profileFields : Fields :=
  [(str "_key", .text), (str "user_id", .text), (str "tenant_id", .text),
    (str "display_name", .text), (str "email", .text), (str "lang", .text), (str "theme", .text),
    (str "updated_at", .time)]

/-- `model.UserProfile`, whose key is the ID of its user. -/
structure UserProfile where
  userID : GoString
  tenantID : GoString := []
  displayName : GoString := []
  email : GoString := []
  lang : GoString := []
  theme : GoString := []

/-- A profile as it is written to a document. -/
def UserProfile.document (times : TimeFormat) (now : Time) (p : UserProfile) : Document :=
  Document.ofEntries [("user_id", .str p.userID), ("tenant_id", .str p.tenantID),
    ("display_name", .str p.displayName), ("email", .str p.email), ("lang", .str p.lang),
    ("theme", .str p.theme), ("updated_at", .str (times.text now))]

/-! ### Passwords -/

/-- `golang.org/x/crypto/bcrypt` -/
structure Bcrypt where
  /-- `GenerateFromPassword`, with the salt that it draws; `none` where it fails. -/
  generate : GoString → GoString → Option GoString
  /-- `CompareHashAndPassword` succeeds, the hash first. -/
  compare : GoString → GoString → Bool

/-- What a request finds around it: the time, and the salt that it draws. -/
structure Moment where
  now : Time := 0
  salt : GoString := []

section Programs

variable (times : TimeFormat) (bcrypt : Bcrypt) (m : Moment)

/-! ### Repositories -/

/-- `UserRepo.GetByID` -/
def getByID (key : GoString) : DB (Except GoString User) := do
  match ← getByKey times userFields .users "user" key [] with
  | .error msg => pure (.error msg)
  | .ok d => pure (.ok (.ofDocument d))

/-- The condition of `UserRepo.GetByEmail`. -/
def hasLogin (login : GoString) (d : Document) : Bool :=
  d.get (str "email") = .str login || d.get (str "username") = .str login

/-- `UserRepo.GetByEmail` -/
def getByEmail (login : GoString) (place : List ℕ) : DB (Except GoString User) := do
  match ← findDoc .users (hasLogin login) place with
  | .error e => pure (.error e.text)
  | .ok none => pure (.error (str "user not found"))
  | .ok (some d) =>
    if d.Reads times userFields then pure (.ok (.ofDocument d))
    else pure (.error (str "json: cannot unmarshal"))

/-- `UserRepo.Create` -/
def createUser (u : User) : DB (Except GoString GoString) := do
  match ← createDoc .users u.key (u.document times m.now) [] with
  | .error e => pure (.error e.text)
  | .ok key => pure (.ok key)

/-- `UserRepo.Update` -/
def updateUser (key : GoString) (p : Document) (place : List ℕ) : DB (Except GoString Unit) :=
  patchByKey times m.now .users key p place

/-- `UserRepo.Delete` -/
def deleteUser (key : GoString) : DB (Except GoString Unit) := deleteByKey .users key []

/-- A profile with what it leaves unset taken from a document. -/
def UserProfile.over (p : UserProfile) (existing : Document) : UserProfile where
  userID := p.userID
  tenantID := if p.tenantID = [] then existing.text (str "tenant_id") else p.tenantID
  displayName := if p.displayName = [] then existing.text (str "display_name") else p.displayName
  email := if p.email = [] then existing.text (str "email") else p.email
  lang := if p.lang = [] then existing.text (str "lang") else p.lang
  theme := if p.theme = [] then existing.text (str "theme") else p.theme

/-- `UserProfileRepo.Upsert` -/
def upsertProfile (p : UserProfile) : DB (Except GoString Unit) := do
  match ← readAs times profileFields .userProfiles p.userID [] with
  | .error .notFound =>
    match ← createDoc .userProfiles p.userID (p.document times m.now) [] with
    | .error e => pure (.error e.text)
    | .ok _ => pure (.ok ())
  | .error (.other msg) => pure (.error msg)
  | .ok existing =>
    match ← updateDoc .userProfiles p.userID ((p.over existing).document times m.now) [] with
    | .error e => pure (.error e.text)
    | .ok () => pure (.ok ())

/-! ### The service -/

/-- `UserService.Create` -/
def userServiceCreate (u : User) : DB (Except GoString GoString) :=
  if u.passwordHash = [] then createUser times m { u with isEnabled := true }
  else
    match bcrypt.generate m.salt u.passwordHash with
    | none => pure (.error (str "bcrypt: password length exceeds 72 bytes"))
    | some hash => createUser times m { u with passwordHash := hash, isEnabled := true }

/-- `UserService.Update`. A patch that is a nil map cannot be written, and a password that is no
text cannot be asserted to be one. -/
def userServiceUpdate (key : GoString) (patch : Option Document) (place : List ℕ) :
    DB (Except GoString Unit) :=
  match patch with
  | none => .crash
  | some p =>
    match p[str "password"]? with
    | none => updateUser times m key p place
    | some (.str pw) =>
      match bcrypt.generate m.salt pw with
      | none => pure (.error (str "bcrypt: password length exceeds 72 bytes"))
      | some hash =>
        updateUser times m key ((p.erase (str "password")).insert (str "password_hash") (.str hash))
          place
    | some _ => .crash

/-- `UserService.ChangePassword` -/
def userServiceChangePassword (key oldPw newPw : GoString) : DB (Except GoString Unit) := do
  match ← getByID times key with
  | .error msg => pure (.error msg)
  | .ok user =>
    if bcrypt.compare user.passwordHash oldPw then
      match bcrypt.generate m.salt newPw with
      | none => pure (.error (str "bcrypt: password length exceeds 72 bytes"))
      | some hash =>
        updateUser times m key (Document.ofEntries [("password_hash", .str hash)]) []
    else pure (.error (str "invalid current password"))

/-! ### The handlers -/

/-- The body of `UpdateProfile`. -/
structure ProfileBody where
  displayName : GoString := []
  email : GoString := []
  lang : GoString := []
  theme : GoString := []

/-- The profile that a body is. -/
def ProfileBody.profile (userID tenantID : GoString) (body : ProfileBody) : UserProfile where
  userID := userID
  tenantID := tenantID
  displayName := body.displayName
  email := body.email
  lang := body.lang
  theme := body.theme

/-- The requests that write users. What a request is made as, the user and the tenant of its
token, comes along where it is used. -/
inductive UserRequest where
  | create (tenantID : GoString) (user : User)
  /-- The patch is a nil map where the body is null. -/
  | update (key : GoString) (patch : Option Document)
  | delete (key : GoString)
  | changePassword (key oldPassword newPassword : GoString)
  | bulk (action : GoString) (keys ids : List GoString)
  | updateProfile (userID tenantID : GoString) (body : ProfileBody)

/-- `UserHandler.Create` -/
def handleCreate (tenantID : GoString) (user : User) : DB (Response Unit) := do
  match ← userServiceCreate times bcrypt m { user with tenantID } with
  | .error msg => pure (.internalError msg)
  | .ok _ => pure (.ok ())

/-- `UserHandler.Update` -/
def handleUpdate (key : GoString) (patch : Option Document) : DB (Response Unit) := do
  match ← userServiceUpdate times bcrypt m key patch [] with
  | .error msg => pure (.internalError msg)
  | .ok () => pure (.ok ())

/-- `UserHandler.Delete` -/
def handleDelete (key : GoString) : DB (Response Unit) := do
  match ← deleteUser key with
  | .error msg => pure (.internalError msg)
  | .ok () => pure (.ok ())

/-- `UserHandler.ChangePassword` -/
def handleChangePassword (key oldPw newPw : GoString) : DB (Response Unit) := do
  match ← userServiceChangePassword times bcrypt m key oldPw newPw with
  | .error msg => pure (.badRequest msg)
  | .ok () => pure (.ok ())

/-- The patch of an action of `UserHandler.Bulk`. -/
def bulkPatch (action : GoString) : Option Document :=
  if action = str "enable" then some (Document.ofEntries [("enabled", .bool true)])
  else if action = str "disable" then some (Document.ofEntries [("enabled", .bool false)])
  else none

/-- The loop of `UserHandler.Bulk`, which counts the updates that succeed. -/
def bulkLoop (patch : Document) : List GoString → ℕ → ℕ → DB ℕ
  | [], _, count => pure count
  | k :: keys, i, count => do
    match ← userServiceUpdate times bcrypt m k (some patch) [i] with
    | .error _ => bulkLoop patch keys (i + 1) count
    | .ok () => bulkLoop patch keys (i + 1) (count + 1)

/-- The keys of a bulk request. -/
def bulkKeys (keys ids : List GoString) : List GoString := if keys = [] then ids else keys

/-- `UserHandler.Bulk` -/
def handleBulk (action : GoString) (keys ids : List GoString) : DB (Response Unit) :=
  if bulkKeys keys ids = [] then pure (.badRequest (str "keys or ids required"))
  else
    match bulkPatch action with
    | none => pure (.badRequest (str "unknown action: " ++ action))
    | some patch => do
      let _ ← bulkLoop times bcrypt m patch (bulkKeys keys ids) 0 0
      pure (.ok ())

/-- The patch of the user record that `UpdateProfile` makes. -/
def profilePatch (body : ProfileBody) : List (String × Value) :=
  (if body.displayName = [] then [] else [("display_name", .str body.displayName)]) ++
    if body.email = [] then [] else [("email", .str body.email)]

/-- `UserHandler.UpdateProfile` -/
def handleUpdateProfile (userID tenantID : GoString) (body : ProfileBody) : DB (Response Unit) :=
  if userID = [] then pure (.ok ())
  else do
    match ← upsertProfile times m (body.profile userID tenantID) with
    | .error msg => pure (.internalError msg)
    | .ok () =>
      if profilePatch body = [] then pure (.ok ())
      else do
        let _ ← userServiceUpdate times bcrypt m userID
          (some (Document.ofEntries (profilePatch body))) []
        pure (.ok ())

/-- The program of a request. -/
def UserRequest.program : UserRequest → DB (Response Unit)
  | .create tenantID user => handleCreate times bcrypt m tenantID user
  | .update key patch => handleUpdate times bcrypt m key patch
  | .delete key => handleDelete key
  | .changePassword key oldPw newPw => handleChangePassword times bcrypt m key oldPw newPw
  | .bulk action keys ids => handleBulk times bcrypt m action keys ids
  | .updateProfile userID tenantID body => handleUpdateProfile times bcrypt m userID tenantID body

/-! ### What a request writes -/

/-- A patch with its password, if it has one, replaced by a hash. -/
inductive Hashed (p : Document) : Document → Prop where
  | same : Hashed p p
  | password (hash : GoString) :
      Hashed p ((p.erase (str "password")).insert (str "password_hash") (.str hash))

/-- What a request asks to be written to the users. -/
inductive UserWrite : UserRequest → Op → Prop where
  | create {tenantID hash : GoString} {u : User} : UserWrite (.create tenantID u)
      (.create .users u.key
        ({ u with tenantID, passwordHash := hash, isEnabled := true }.document times m.now))
  | update {key : GoString} {p p' : Document} (h : Hashed p p') :
      UserWrite (.update key (some p)) (.update .users key (stamp times m.now p'))
  | delete {key : GoString} : UserWrite (.delete key) (.delete .users key)
  | changePassword {key oldPw newPw hash : GoString} : UserWrite (.changePassword key oldPw newPw)
      (.update .users key (stamp times m.now (Document.ofEntries [("password_hash", .str hash)])))
  | bulk {action k : GoString} {keys ids : List GoString} {p p' : Document}
      (hp : bulkPatch action = some p) (h : Hashed p p') :
      UserWrite (.bulk action keys ids) (.update .users k (stamp times m.now p'))
  | updateProfile {userID tenantID : GoString} {body : ProfileBody} {p' : Document}
      (h : Hashed (Document.ofEntries (profilePatch body)) p') :
      UserWrite (.updateProfile userID tenantID body)
        (.update .users userID (stamp times m.now p'))

/-- What a request may ask of the database. -/
def Asks (req : UserRequest) (i : Call) : Prop :=
  i.op.isRead = true ∨ i.op.col = .userProfiles ∨ UserWrite times m req i.op

variable {times bcrypt m}

theorem Hashed.getElem?_eq {p p' : Document} (h : Hashed p p') {name : GoString}
    (hpassword : name ≠ str "password") (hhash : name ≠ str "password_hash") :
    p'[name]? = p[name]? := by
  cases h with
  | same => rfl
  | password hash =>
    rw [GoMap.getElem?_insert, if_neg hhash, GoMap.getElem?_erase, if_neg hpassword]

theorem calls_userServiceUpdate {P : Call → Prop} {key : GoString} {place : List ℕ} {p : Document}
    (h : ∀ p', Hashed p p' → P (Call.mk (.update .users key (stamp times m.now p')) place)) :
    (userServiceUpdate times bcrypt m key (some p) place).Calls P := by
  simp only [userServiceUpdate]
  split
  · exact calls_patchByKey (h p .same)
  · split
    · exact trivial
    · exact calls_patchByKey (h _ (.password _))
  · exact trivial

theorem calls_bulkLoop {P : Call → Prop} {p : Document}
    (h : ∀ k i p', Hashed p p' → P (Call.mk (.update .users k (stamp times m.now p')) [i]))
    (keys : List GoString) : ∀ i count, (bulkLoop times bcrypt m p keys i count).Calls P := by
  induction keys with
  | nil => exact fun i count => trivial
  | cons k keys ih =>
    intro i count
    refine (calls_userServiceUpdate (h k i)).bind ?_
    rintro (msg | _)
    · exact ih (i + 1) count
    · exact ih (i + 1) (count + 1)

/-- **What a request may write of the users is what it asks for.** -/
theorem program_asks (req : UserRequest) :
    (req.program times bcrypt m).Calls (Asks times m req) := by
  cases req with
  | create tenantID user =>
    refine Prog.Calls.bind ?_ fun r => by cases r <;> exact trivial
    have hcreate : ∀ hash, (createUser times m
        { user with tenantID, passwordHash := hash, isEnabled := true }).Calls
        (Asks times m (.create tenantID user)) := by
      intro hash
      refine Prog.Calls.bind (Prog.calls_send (.inr (.inr .create))) ?_
      rintro (e | k) <;> exact trivial
    -- the document is the same, whatever hash it gets
    simp only [userServiceCreate]
    split
    · exact hcreate user.passwordHash
    · split
      · exact trivial
      · exact hcreate _
  | update key patch =>
    refine Prog.Calls.bind ?_ fun r => by cases r <;> exact trivial
    rcases patch with _ | p
    · exact trivial
    · exact calls_userServiceUpdate fun p' hp => .inr (.inr (.update hp))
  | delete key =>
    refine Prog.Calls.bind ?_ fun r => by cases r <;> exact trivial
    exact calls_deleteByKey (.inr (.inr .delete))
  | changePassword key oldPw newPw =>
    refine Prog.Calls.bind ?_ fun r => by cases r <;> exact trivial
    refine Prog.Calls.bind (Prog.Calls.bind (calls_getByKey (.inl rfl))
      fun r => by cases r <;> exact trivial) ?_
    rintro (msg | user)
    · exact trivial
    · dsimp only
      split
      · split
        · exact trivial
        · exact calls_patchByKey (.inr (.inr .changePassword))
      · exact trivial
  | bulk action keys ids =>
    simp only [UserRequest.program, handleBulk]
    split
    · exact trivial
    · rcases hpatch : bulkPatch action with _ | p
      · exact trivial
      · exact (calls_bulkLoop (fun k i p' hp => .inr (.inr (.bulk hpatch hp))) _ _ _).bind
          fun _ => trivial
  | updateProfile userID tenantID body =>
    simp only [UserRequest.program, handleUpdateProfile]
    split
    · exact trivial
    · refine Prog.Calls.bind (Prog.Calls.bind (calls_readAs (.inl rfl)) ?_) ?_
      · rintro ((_ | msg) | d)
        · refine Prog.Calls.bind (Prog.calls_send (.inr (.inl rfl))) ?_
          rintro (e | k) <;> exact trivial
        · exact trivial
        · refine Prog.Calls.bind (Prog.calls_send (.inr (.inl rfl))) ?_
          rintro (e | k) <;> exact trivial
      · rintro (msg | _)
        · exact trivial
        · dsimp only
          split
          · exact trivial
          · exact (calls_userServiceUpdate fun p' hp => .inr (.inr (.updateProfile hp))).bind
              fun _ => trivial

end Programs

end Auth

end Xsiam
