import Xsiam.Repository.Calls

/-!
# Roles

`model.RBACRole`, its repository, `RBACService` and `RBACHandler` of `internal/domain/auth`, and the
check of `internal/svc/rbac`, as programs on the database. A role has permissions and members. The
service that edits the members finds the role in the list of the roles of no tenant, which is a list
of a tenant with an empty name; the check goes through the list of the tenant it is asked for.
-/

namespace Xsiam

namespace Auth

namespace Rbac

open Go Repository

/-! ### Records -/

/-- The names of the lists of `model.ResourceScope`, in their order. -/
def scopeNames : List String :=
  ["asset_group_ids", "dataset_ids", "intel_source_ids", "playbook_ids", "report_ids", "rule_ids"]

/-- The fields of `model.RBACRole`. -/
def roleFields : Fields :=
  [(str "_key", .text), (str "role_id", .text), (str "tenant_id", .text), (str "name", .text),
    (str "permissions", .list .text),
    (str "resource_scopes", .record (scopeNames.map fun name => (str name, .list .text))),
    (str "members", .list .text), (str "is_builtin", .flag), (str "created_at", .time),
    (str "updated_at", .time)]

/-- A `[]string` that may be nil, as it is written. -/
def sliceValue : Option (List GoString) → Value
  | none => .null
  | some ss => Document.ofTexts ss

/-- `model.RBACRole`, as the body of a request. Slices may be nil; the scopes are the lists of
`model.ResourceScope`, by their names. -/
structure RoleBody where
  key : GoString := []
  roleID : GoString := []
  tenantID : GoString := []
  name : GoString := []
  permissions : Option (List GoString) := none
  scopes : String → Option (List GoString) := fun _ => none
  members : Option (List GoString) := none
  isBuiltin : Bool := false

/-- The scopes as they are written. -/
def RoleBody.scopesValue (b : RoleBody) : Value :=
  .obj (scopeNames.map fun name => (str name, sliceValue (b.scopes name)))

/-- The attributes of a role as they are written. -/
def RoleBody.entries (times : TimeFormat) (now : Time) (b : RoleBody) : List (String × Value) :=
  ("role_id", .str b.roleID) :: ("tenant_id", .str b.tenantID) :: ("name", .str b.name) ::
    ("permissions", sliceValue b.permissions) :: ("resource_scopes", b.scopesValue) ::
    ("members", sliceValue b.members) :: ("is_builtin", Value.bool b.isBuiltin) ::
    ("created_at", .str (times.text now)) :: [("updated_at", .str (times.text now))]

/-- A role as it is written to a document. -/
def RoleBody.document (times : TimeFormat) (now : Time) (b : RoleBody) : Document :=
  Document.ofEntries (b.entries times now)

theorem RoleBody.get_document {times : TimeFormat} {now : Time} {b : RoleBody} {name : String}
    {v : Value} (h : (name, v) ∈ b.entries times now) :
    (b.document times now).get (str name) = v := by
  refine Document.get_ofEntries ?_ h
  have hnames : ["role_id", "tenant_id", "name", "permissions", "resource_scopes", "members",
      "is_builtin", "created_at", "updated_at"].Nodup := by decide
  exact hnames

/-! ### The repository and the services -/

section Programs

variable (times : TimeFormat) (now : Time)

/-- `doc.tenant_id == @tenantID` -/
def ownedBy (tenantID : GoString) (d : Document) : Bool := d.get (str "tenant_id") = .str tenantID

/-- `RBACRoleRepo.List` -/
def listRoles (tenantID : GoString) : DB (Except GoString (List Document)) := do
  match ← findDocs .rbacRoles (ownedBy tenantID) [] with
  | .error e => pure (.error e.text)
  | .ok ds =>
    if ∀ d ∈ ds, d.Reads times roleFields then pure (.ok ds)
    else pure (.error (str "json: cannot unmarshal"))

/-- `RBACService.Create` -/
def serviceCreate (b : RoleBody) : DB (Except GoString GoString) :=
  if b.isBuiltin then pure (.error (str "cannot create builtin role via API"))
  else do
    match ← createDoc .rbacRoles b.key (b.document times now) [] with
    | .error e => pure (.error e.text)
    | .ok key => pure (.ok key)

/-- `RBACService.Update`. A patch that is a nil map cannot be written. -/
def serviceUpdate (key : GoString) (patch : Option Document) : DB (Except GoString Unit) :=
  match patch with
  | none => .crash
  | some p => patchByKey times now .rbacRoles key p []

/-- The members a role is read with. -/
def membersOf (d : Document) : List GoString := d.texts (str "members")

/-- What a role's members are written as. -/
def membersPatch (members : Option (List GoString)) : Document :=
  Document.ofEntries [("members", sliceValue members)]

/-- A slice that is appended to from nil: nil where nothing was appended. -/
def appended (ss : List GoString) : Option (List GoString) := if ss = [] then none else some ss

/-- The role of a key among those that were listed. -/
def roleOfKey (key : GoString) (ds : List Document) : Option Document :=
  ds.find? fun d => d.text keyName = key

/-- `RBACService.AddMember` -/
def addMember (roleKey userID : GoString) : DB (Except GoString Unit) := do
  match ← listRoles times [] with
  | .error msg => pure (.error msg)
  | .ok ds =>
    match roleOfKey roleKey ds with
    | none => pure (.error (str "role " ++ roleKey ++ str " not found"))
    | some d =>
      if userID ∈ membersOf d then pure (.ok ())
      else patchByKey times now .rbacRoles roleKey (membersPatch (some (membersOf d ++ [userID]))) []

/-- `RBACService.RemoveMember` -/
def removeMember (roleKey userID : GoString) : DB (Except GoString Unit) := do
  match ← listRoles times [] with
  | .error msg => pure (.error msg)
  | .ok ds =>
    match roleOfKey roleKey ds with
    | none => pure (.error (str "role " ++ roleKey ++ str " not found"))
    | some d =>
      patchByKey times now .rbacRoles roleKey
        (membersPatch (appended ((membersOf d).filter (· ≠ userID)))) []

/-- What stands before and behind the first colon of a text, which is `strings.SplitN` at a colon
into two. -/
def splitColon : GoString → Option (GoString × GoString)
  | [] => none
  | b :: s => if b = 0x3A then some ([], s) else (splitColon s).map fun p => (b :: p.1, p.2)

/-- `matchWildcard` -/
def matchWildcard (pattern permission : GoString) : Bool :=
  match splitColon pattern, splitColon permission with
  | some pp, some perm => (pp.1 = str "*" || pp.1 = perm.1) && (pp.2 = str "*" || pp.2 = perm.2)
  | _, _ => false

/-- The permissions a role is read with permit what is asked for. -/
def permits (d : Document) (permission : GoString) : Bool :=
  (d.texts (str "permissions")).any fun p =>
    p = permission || p = str "*" || matchWildcard p permission

/-- `Service.Check` -/
def check (userID tenantID permission : GoString) : DB (Except GoString Bool) := do
  match ← listRoles times tenantID with
  | .error msg => pure (.error msg)
  | .ok ds => pure (.ok (ds.any fun d => userID ∈ membersOf d && permits d permission))

/-! ### The handlers -/

/-- The requests that write roles. -/
inductive RoleRequest where
  | create (tenantID : GoString) (body : RoleBody)
  /-- The patch is a nil map where the body is null. -/
  | update (key : GoString) (patch : Option Document)
  | delete (key : GoString)
  | addMember (roleKey userID : GoString)
  | removeMember (roleKey userID : GoString)

/-- What a request is answered with. -/
inductive RoleReply where
  | created (key : GoString)
  | updated (key : GoString)
  | deleted
  | memberAdded (roleKey userID : GoString)
  | memberRemoved

/-- `RBACHandler.Create`: the role is the caller's. -/
def handleCreate (tenantID : GoString) (b : RoleBody) : DB (Response RoleReply) := do
  match ← serviceCreate times now { b with tenantID } with
  | .error msg => pure (.badRequest msg)
  | .ok key => pure (.ok (.created key))

/-- `RBACHandler.Update` -/
def handleUpdate (key : GoString) (patch : Option Document) : DB (Response RoleReply) := do
  match ← serviceUpdate times now key patch with
  | .error msg => pure (.internalError msg)
  | .ok () => pure (.ok (.updated key))

/-- `RBACHandler.Delete` -/
def handleDelete (key : GoString) : DB (Response RoleReply) := do
  match ← deleteByKey .rbacRoles key [] with
  | .error msg => pure (.internalError msg)
  | .ok () => pure (.ok .deleted)

/-- `RBACHandler.AddMember` -/
def handleAddMember (roleKey userID : GoString) : DB (Response RoleReply) := do
  match ← addMember times now roleKey userID with
  | .error msg => pure (.internalError msg)
  | .ok () => pure (.ok (.memberAdded roleKey userID))

/-- `RBACHandler.RemoveMember` -/
def handleRemoveMember (roleKey userID : GoString) : DB (Response RoleReply) := do
  match ← removeMember times now roleKey userID with
  | .error msg => pure (.internalError msg)
  | .ok () => pure (.ok .memberRemoved)

/-- The program of a request. -/
def RoleRequest.program : RoleRequest → DB (Response RoleReply)
  | .create tenantID body => handleCreate times now tenantID body
  | .update key patch => handleUpdate times now key patch
  | .delete key => handleDelete key
  | .addMember roleKey userID => handleAddMember times now roleKey userID
  | .removeMember roleKey userID => handleRemoveMember times now roleKey userID

end Programs

/-! ### Lists of roles, and permissions -/

theorem texts_sliceValue {d : Document} {name : GoString} {ss : Option (List GoString)}
    (h : d.get name = sliceValue ss) : d.texts name = ss.getD [] := by
  rcases ss with _ | ss
  · rw [Document.texts, Document.list, h]
    rfl
  · exact Document.texts_of_get h

/-- What is split is glued with a colon, and the first part has none. -/
theorem splitColon_eq_some {s resource action : GoString} :
    splitColon s = some (resource, action) ↔
      s = resource ++ 0x3A :: action ∧ 0x3A ∉ resource := by
  induction s generalizing resource with
  | nil => simp [splitColon]
  | cons b s ih =>
    rw [splitColon]
    split_ifs with hb
    · rcases resource with _ | ⟨r, rs⟩
      · simp [hb]
      · simp only [Option.some.injEq, Prod.mk.injEq, reduceCtorEq, false_and, List.cons_append,
          List.cons.injEq, List.mem_cons, not_or, false_iff, not_and]
        rintro ⟨hr, -⟩ hne
        exact absurd (hb.symm.trans hr) hne
    · rcases resource with _ | ⟨r, rs⟩
      · simp [hb]
      · simp only [Option.map_eq_some_iff, Prod.exists, Prod.mk.injEq, List.cons.injEq,
          List.cons_append, List.mem_cons, not_or]
        constructor
        · rintro ⟨p, q, hs, ⟨rfl, rfl⟩, rfl⟩
          obtain ⟨hglued, hnone⟩ := ih.mp hs
          exact ⟨⟨rfl, hglued⟩, Ne.symm hb, hnone⟩
        · rintro ⟨⟨rfl, hglued⟩, -, hnone⟩
          exact ⟨rs, action, ih.mpr ⟨hglued, hnone⟩, ⟨rfl, rfl⟩, rfl⟩

/-- The roles of a tenant, as they are listed. -/
theorem run_listRoles {times : TimeFormat} {answers : Call → Answer}
    (hok : ∀ i, (answers i).outcome = .ok) (tenantID : GoString) (db : DocStore) :
    Prog.run (serveAll answers) (listRoles times tenantID) db =
      (some (if ∀ d ∈ matching (answers (Call.mk (.findAll .rbacRoles (ownedBy tenantID)) [])).order
          (db .rbacRoles) (ownedBy tenantID), d.Reads times roleFields
        then .ok (matching (answers (Call.mk (.findAll .rbacRoles (ownedBy tenantID)) [])).order
          (db .rbacRoles) (ownedBy tenantID))
        else .error (str "json: cannot unmarshal")), db) := by
  rw [listRoles, Prog.run_bind, run_findDocs_of_ok hok]
  dsimp only
  split_ifs
  · rfl
  · rfl

/-! ### What a request writes -/

/-- What a request asks to be written to the roles. -/
inductive RoleWrite (times : TimeFormat) (now : Time) : RoleRequest → Op → Prop where
  | create {tenantID : GoString} {body : RoleBody} (h : body.isBuiltin = false) :
      RoleWrite times now (.create tenantID body)
        (.create .rbacRoles body.key (({ body with tenantID } : RoleBody).document times now))
  | update {key : GoString} {p : Document} :
      RoleWrite times now (.update key (some p)) (.update .rbacRoles key (stamp times now p))
  | delete {key : GoString} : RoleWrite times now (.delete key) (.delete .rbacRoles key)
  | addMember {roleKey userID : GoString} {members : List GoString} (h : userID ∉ members) :
      RoleWrite times now (.addMember roleKey userID) (.update .rbacRoles roleKey
        (stamp times now (membersPatch (some (members ++ [userID])))))
  | removeMember {roleKey userID : GoString} {members : List GoString} :
      RoleWrite times now (.removeMember roleKey userID) (.update .rbacRoles roleKey
        (stamp times now (membersPatch (appended (members.filter (· ≠ userID))))))

theorem RoleWrite.col {times : TimeFormat} {now : Time} {req : RoleRequest} {op : Op}
    (h : RoleWrite times now req op) : op.col = .rbacRoles := by
  cases h <;> rfl

/-- What a request may ask of the database. -/
def Asks (times : TimeFormat) (now : Time) (req : RoleRequest) (i : Call) : Prop :=
  i.op.isRead = true ∨ RoleWrite times now req i.op

theorem calls_listRoles {times : TimeFormat} {tenantID : GoString} {P : Call → Prop}
    (h : P (Call.mk (.findAll .rbacRoles (ownedBy tenantID)) [])) :
    (listRoles times tenantID).Calls P := by
  refine Prog.Calls.bind (Prog.calls_send h) ?_
  rintro (e | ds)
  · exact trivial
  · dsimp only
    split <;> exact trivial

/-- **What a request may write of the roles is what it asks for.** -/
theorem program_asks (times : TimeFormat) (now : Time) (req : RoleRequest) :
    (req.program times now).Calls (Asks times now req) := by
  cases req with
  | create tenantID body =>
    refine Prog.Calls.bind ?_ fun r => by cases r <;> exact trivial
    simp only [serviceCreate]
    -- a built-in name is refused before any call
    split_ifs with hbuiltin
    · exact trivial
    · refine Prog.Calls.bind (Prog.calls_send (.inr (.create (by simpa using hbuiltin)))) ?_
      rintro (e | key) <;> exact trivial
  | update key patch =>
    refine Prog.Calls.bind ?_ fun r => by cases r <;> exact trivial
    rcases patch with _ | p
    · exact trivial
    · exact calls_patchByKey (.inr .update)
  | delete key =>
    refine Prog.Calls.bind (calls_deleteByKey (.inr .delete)) ?_
    rintro (msg | _) <;> exact trivial
  | addMember roleKey userID =>
    refine Prog.Calls.bind (Prog.Calls.bind (calls_listRoles (.inl rfl)) ?_)
      fun r => by cases r <;> exact trivial
    rintro (msg | ds)
    · exact trivial
    · dsimp only
      rcases roleOfKey roleKey ds with _ | d
      · exact trivial
      · dsimp only
        -- who is a member already is not written again
        split_ifs with hmember
        · exact trivial
        · exact calls_patchByKey (.inr (.addMember hmember))
  | removeMember roleKey userID =>
    refine Prog.Calls.bind (Prog.Calls.bind (calls_listRoles (.inl rfl)) ?_)
      fun r => by cases r <;> exact trivial
    rintro (msg | ds)
    · exact trivial
    · dsimp only
      rcases roleOfKey roleKey ds with _ | d
      · exact trivial
      · exact calls_patchByKey (.inr .removeMember)

end Rbac

end Auth

end Xsiam
