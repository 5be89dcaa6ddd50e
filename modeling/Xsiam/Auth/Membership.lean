import Xsiam.Auth.Roles

/-!
# Membership of roles

A role has a tenant, permissions and members, which are what the requests on it have left
(`Xsiam.Auth.Rbac.RoleRequest.leaves`), and a user may do what a role of the tenant permits whose
member the user is (`Xsiam.Auth.Rbac.Allowed`).

The requests are served one after the other. A check says just that, and members are added and
removed as they are asked to be (`Xsiam.Auth.Rbac.membership`), as long as every update leaves a
role that can be read, and members are edited of such roles only as are of the tenant with the empty
name: these are the only ones that the service finds (`Xsiam.Auth.Rbac.succeeds_iff`).
-/

namespace Xsiam

namespace Auth

namespace Rbac

open Go Repository

/-! ### What is permitted -/

/-- A role, as far as it permits anything. It has no tenant where what stands there is no text. -/
structure Role where
  tenant : Option GoString
  permissions : List GoString
  members : List GoString

/-- The tenant that is read from a value. -/
def tenantOf : Value → Option GoString
  | .str s => some s
  | _ => none

/-- A role as it is stored. -/
def Role.ofDocument (d : Document) : Role where
  tenant := tenantOf (d.get (str "tenant_id"))
  permissions := d.texts (str "permissions")
  members := membersOf d

theorem tenant_ofDocument_iff {d : Document} {tenantID : GoString} :
    (Role.ofDocument d).tenant = some tenantID ↔ ownedBy tenantID d = true := by
  rw [Role.ofDocument, ownedBy, decide_eq_true_eq]
  cases d.get (str "tenant_id") <;> simp [tenantOf]

/-- The roles, by their keys. -/
abbrev Roles := GoString → Option Role

/-- The roles as they are stored. -/
def rolesOf (db : DocStore) : Roles := fun key => (db .rbacRoles)[key]?.map Role.ofDocument

/-- A permission permits what is asked for: it is just that, or everything, or it is a resource and
an action, with a star in the place of one that may be any. -/
inductive Grants : GoString → GoString → Prop where
  | same (permission : GoString) : Grants permission permission
  | all (permission : GoString) : Grants (str "*") permission
  | wildcard {resource action resource' action' : GoString} (hcolon : 0x3A ∉ resource)
      (hcolon' : 0x3A ∉ resource') (hresource : resource' = str "*" ∨ resource' = resource)
      (haction : action' = str "*" ∨ action' = action) :
      Grants (resource' ++ 0x3A :: action') (resource ++ 0x3A :: action)

/-- A user may do something in a tenant. -/
def Allowed (roles : Roles) (userID tenantID permission : GoString) : Prop :=
  ∃ key role, roles key = some role ∧ role.tenant = some tenantID ∧ userID ∈ role.members ∧
    ∃ p ∈ role.permissions, Grants p permission

theorem matchWildcard_iff {pattern permission : GoString} :
    matchWildcard pattern permission = true ↔ ∃ resource action resource' action',
      permission = resource ++ 0x3A :: action ∧ 0x3A ∉ resource ∧
      pattern = resource' ++ 0x3A :: action' ∧ 0x3A ∉ resource' ∧
      (resource' = str "*" ∨ resource' = resource) ∧ (action' = str "*" ∨ action' = action) := by
  rw [matchWildcard]
  constructor
  · intro h
    rcases hpattern : splitColon pattern with _ | ⟨resource', action'⟩
    · simp [hpattern] at h
    · rcases hperm : splitColon permission with _ | ⟨resource, action⟩
      · simp [hpattern, hperm] at h
      · obtain ⟨hglued', hcolon'⟩ := splitColon_eq_some.mp hpattern
        obtain ⟨hglued, hcolon⟩ := splitColon_eq_some.mp hperm
        simp only [hpattern, hperm, Bool.and_eq_true, Bool.or_eq_true, decide_eq_true_eq] at h
        exact ⟨resource, action, resource', action', hglued, hcolon, hglued', hcolon', h.1, h.2⟩
  · rintro ⟨resource, action, resource', action', hglued, hcolon, hglued', hcolon', hr, ha⟩
    rw [splitColon_eq_some.mpr ⟨hglued, hcolon⟩, splitColon_eq_some.mpr ⟨hglued', hcolon'⟩]
    simp only [Bool.and_eq_true, Bool.or_eq_true, decide_eq_true_eq]
    exact ⟨hr, ha⟩

theorem grants_iff {p permission : GoString} : Grants p permission ↔
    (p = permission ∨ p = str "*") ∨ matchWildcard p permission = true := by
  rw [matchWildcard_iff]
  constructor
  · rintro (_ | _ | ⟨hcolon, hcolon', hresource, haction⟩)
    · exact .inl (.inl rfl)
    · exact .inl (.inr rfl)
    · exact .inr ⟨_, _, _, _, rfl, hcolon, rfl, hcolon', hresource, haction⟩
  · rintro ((rfl | rfl) | ⟨resource, action, resource', action', rfl, hcolon, rfl, hcolon', hr, ha⟩)
    · exact .same _
    · exact .all _
    · exact .wildcard hcolon hcolon' hr ha

theorem permits_iff {d : Document} {permission : GoString} : permits d permission = true ↔
    ∃ p ∈ d.texts (str "permissions"), Grants p permission := by
  simp only [permits, List.any_eq_true, Bool.or_eq_true, decide_eq_true_eq, grants_iff]

/-! ### What requests leave -/

/-- A role with a patch. -/
def Role.patched (p : Document) (r : Role) : Role where
  tenant := (p[str "tenant_id"]?.map tenantOf).getD r.tenant
  permissions := (p[str "permissions"]?.map Document.valueTexts).getD r.permissions
  members := (p[str "members"]?.map Document.valueTexts).getD r.members

/-- A role with a member, who is in the list once. -/
def Role.withMember (userID : GoString) (r : Role) : Role :=
  if userID ∈ r.members then r else { r with members := r.members ++ [userID] }

/-- A role without a member. -/
def Role.withoutMember (userID : GoString) (r : Role) : Role :=
  { r with members := r.members.filter (· ≠ userID) }

/-- The roles with one of them changed, if it is there. -/
def Roles.change (roles : Roles) (key : GoString) (f : Role → Role) : Roles :=
  Function.update roles key ((roles key).map f)

/-- What a request makes of the roles, where a role that it creates gets a key. A key that is taken
is not given again. -/
def RoleRequest.leaves (newKey : GoString) (roles : Roles) : RoleRequest → Roles
  | .create tenantID body =>
    if body.isBuiltin ∨ roles newKey ≠ none then roles
    else Function.update roles newKey
      (some ⟨some tenantID, body.permissions.getD [], body.members.getD []⟩)
  | .update _ none => roles
  | .update key (some p) => roles.change key (Role.patched p)
  | .delete key => Function.update roles key none
  | .addMember key userID => roles.change key (Role.withMember userID)
  | .removeMember key userID => roles.change key (Role.withoutMember userID)

/-! ### Requests one after the other -/

/-- A request, when it is served, and how the calls go that it makes. -/
structure Turn where
  req : RoleRequest
  now : Time := 0
  answers : Call → Answer := fun _ => {}

section Turns

variable (times : TimeFormat)

/-- A request served: what it is answered, and what it leaves. -/
def Turn.serve (db : DocStore) (t : Turn) : Option (Response RoleReply) × DocStore :=
  Prog.run (serveAll t.answers) (t.req.program times t.now) db

/-- The key that a role gets. -/
def Turn.key (t : Turn) : GoString :=
  match t.req with
  | .create tenantID body => newKey (t.answers (Call.mk (.create .rbacRoles body.key
      (({ body with tenantID } : RoleBody).document times t.now)) [])) body.key
  | _ => []

/-- One request after the other. -/
def step (db : DocStore) (t : Turn) : Option DocStore := some (t.serve times db).2

/-- A request whose calls succeed, an update of which leaves a role that can be read, and which
edits the members of such roles only as are of the tenant with the empty name. -/
def Meets (db : DocStore) (t : Turn) : Prop :=
  (∀ i, (t.answers i).outcome = .ok) ∧
  match t.req with
  | .update key (some p) => ∀ own : Document, (db .rbacRoles)[key]? = some own →
      (withKey key (own.patch (stamp times t.now p))).Reads times roleFields
  | .addMember key _ | .removeMember key _ => ∀ own : Document, (db .rbacRoles)[key]? = some own →
      ownedBy [] own = true
  | _ => True

/-- The roles after the requests of a run. -/
def leftBy (roles : Roles) : Run.History DocStore Turn → Roles
  | [] => roles
  | (_, t) :: hist => t.req.leaves (t.key times) (leftBy roles hist)

/-- Every role can be read. -/
def Readable (db : DocStore) : Prop :=
  ∀ (key : GoString) (own : Document), (db .rbacRoles)[key]? = some own →
    (withKey key own).Reads times roleFields

/-- The role whose members a request edits. -/
def RoleRequest.edits : RoleRequest → Option GoString
  | .addMember key _ | .removeMember key _ => some key
  | _ => none

/-- A request has succeeded. -/
def Succeeds : Option (Response RoleReply) → Prop
  | some (.ok _) => True
  | _ => False

end Turns

/-! ### One request -/

section Turn

variable {times : TimeFormat} {now : Time} {answers : Call → Answer} {db : DocStore}
  {key : GoString} {own : Document}

theorem membersOf_withKey : membersOf (withKey key own) = membersOf own := by
  rw [membersOf, membersOf, Document.texts_eq, Document.texts_eq, get_withKey, if_neg (by decide)]

theorem text_keyName_withKey : (withKey key own).text keyName = key := by
  rw [Document.text, get_withKey, if_pos rfl]
  rfl

/-- The role of a key among those listed is the one that is stored under it, if it is listed. -/
theorem roleOfKey_matching (order : MapRange) (docs : GoMap Document) (cond : Document → Bool)
    (key : GoString) : roleOfKey key (matching order docs cond) =
      (docs[key]?.filter cond).map (withKey key) := by
  rw [roleOfKey]
  rcases hfind : (matching order docs cond).find? fun d => d.text keyName = key with _ | d
  · rw [hfind]
    rcases hown : docs[key]? with _ | own
    · rfl
    · rcases hcond : cond own with _ | _
      · simp [Option.filter, hcond]
      · have hmem : withKey key own ∈ matching order docs cond :=
          mem_matching_iff.mpr ⟨key, own, hown, hcond, rfl⟩
        have hne := List.find?_eq_none.mp hfind _ hmem
        exact absurd (decide_eq_true text_keyName_withKey) hne
  · obtain ⟨key', own', hown', hcond, rfl⟩ := mem_matching_iff.mp (List.mem_of_find?_eq_some hfind)
    have hkey : decide ((withKey key' own').text keyName = key) = true :=
      @List.find?_some _ (fun d : Document => decide (d.text keyName = key)) _ _ hfind
    rw [text_keyName_withKey, decide_eq_true_eq] at hkey
    subst hkey
    rw [hfind, hown']
    simp [Option.filter, hcond]

theorem rolesOf_set (db : DocStore) (key : GoString) (d : Document) :
    rolesOf (db.set .rbacRoles ((db .rbacRoles).insert key d)) =
      Function.update (rolesOf db) key (some (Role.ofDocument d)) := by
  ext k : 1
  rw [rolesOf, DocStore.set_self, GoMap.getElem?_insert, Function.update_apply]
  split_ifs
  · rfl
  · rfl

theorem rolesOf_erase (db : DocStore) (key : GoString) :
    rolesOf (db.set .rbacRoles ((db .rbacRoles).erase key)) =
      Function.update (rolesOf db) key none := by
  ext k : 1
  rw [rolesOf, DocStore.set_self, GoMap.getElem?_erase, Function.update_apply]
  split_ifs
  · rfl
  · rfl

theorem rolesOf_of_none (h : (db .rbacRoles)[key]? = none) : rolesOf db key = none := by
  rw [rolesOf, h]
  rfl

theorem rolesOf_of_some (h : (db .rbacRoles)[key]? = some own) :
    rolesOf db key = some (Role.ofDocument own) := by
  rw [rolesOf, h]
  rfl

theorem Roles.change_of_none {roles : Roles} {f : Role → Role} (h : roles key = none) :
    roles.change key f = roles := by
  rw [Roles.change, h]
  exact Function.update_eq_self_iff.mpr h.symm

theorem Roles.change_of_some {roles : Roles} {f : Role → Role} {r : Role}
    (h : roles key = some r) : roles.change key f = Function.update roles key (some (f r)) := by
  rw [Roles.change, h]
  rfl

theorem tenantOf_mergeValue (old new : Value) : tenantOf (mergeValue old new) = tenantOf new := by
  cases new with
  | obj news => cases old <;> rfl
  | _ => cases old <;> rfl

/-- A role as it is stored after a patch. -/
theorem Role.ofDocument_patch (own p : Document) :
    Role.ofDocument (own.patch p) = (Role.ofDocument own).patched p := by
  have htenant : tenantOf ((own.patch p).get (str "tenant_id")) =
      (p[str "tenant_id"]?.map tenantOf).getD (tenantOf (own.get (str "tenant_id"))) := by
    rcases hp : p[str "tenant_id"]? with _ | v
    · rw [Document.get_patch_of_none hp]
      rfl
    · rw [Document.get_patch_of_some hp (by decide), tenantOf_mergeValue]
      rfl
  rw [Role.ofDocument, Role.patched, htenant, membersOf, Document.texts_patch (by decide),
    Document.texts_patch (by decide)]
  rfl

/-- The time of an update is nothing of what a role permits. -/
theorem Role.patched_stamp (r : Role) (p : Document) :
    r.patched (stamp times now p) = r.patched p := by
  rw [Role.patched, Role.patched, getElem?_stamp (by decide), getElem?_stamp (by decide),
    getElem?_stamp (by decide)]

theorem getElem?_membersPatch (members : Option (List GoString)) (name : GoString) :
    (membersPatch members)[name]? =
      if name = str "members" then some (sliceValue members) else none := by
  show ((∅ : GoMap Value).insert (str "members") (sliceValue members))[name]? = _
  rw [GoMap.getElem?_insert]
  split_ifs
  · rfl
  · exact Std.ExtTreeMap.getElem?_empty

theorem Role.patched_membersPatch (r : Role) (members : Option (List GoString)) :
    r.patched (membersPatch members) = { r with members := members.getD [] } := by
  have htexts : Document.valueTexts (sliceValue members) = members.getD [] := by
    rcases members with _ | ms
    · rfl
    · show (ms.map Value.str).map Document.valueText = ms
      rw [List.map_map]
      exact List.map_id ms
  rw [Role.patched, getElem?_membersPatch, getElem?_membersPatch, getElem?_membersPatch,
    if_neg (by decide), if_neg (by decide), if_pos rfl, Option.map_some, Option.getD_some, htexts]
  rfl

theorem accepts_sliceValue (ss : Option (List GoString)) :
    (Kind.list .text).accepts times (sliceValue ss) = true := by
  rcases ss with _ | ss
  · rfl
  · simp [sliceValue, Document.ofTexts, Kind.accepts]

/-- Members that are written can be read. -/
theorem reads_membersPatch (h : (withKey key own).Reads times roleFields)
    (members : Option (List GoString)) :
    (withKey key (own.patch (stamp times now (membersPatch members)))).Reads times roleFields := by
  refine reads_patch h fun f hf v hv => ?_
  have hkind : (f.1 = str "updated_at" → f.2 = .time) ∧
      (f.1 = str "members" → f.2 = .list .text) := by
    simp only [roleFields, List.mem_cons, List.not_mem_nil, or_false] at hf
    rcases hf with rfl | rfl | rfl | rfl | rfl | rfl | rfl | rfl | rfl | rfl <;> simp
  by_cases hstamp : f.1 = str "updated_at"
  · rw [hstamp, stamp, GoMap.getElem?_insert, if_pos rfl] at hv
    cases hv
    rw [hkind.1 hstamp, mergeValue_str]
    exact times.reads_text now
  · rw [getElem?_stamp hstamp, getElem?_membersPatch] at hv
    split_ifs at hv with hmembers
    cases hv
    have hmerge : mergeValue (own.get f.1) (sliceValue members) = sliceValue members := by
      rcases members with _ | ms
      · exact mergeValue_null _
      · exact mergeValue_arr ..
    rw [hkind.2 hmembers, hmerge]
    exact accepts_sliceValue members

/-- A role that is created can be read. -/
theorem reads_created (now : Time) (b : RoleBody) (key : GoString) :
    (withKey key (ownAttributes (b.document times now))).Reads times roleFields := by
  have haccepts : ∀ (name : String) v (k : Kind), str name ∉ Document.systemNames →
      (name, v) ∈ b.entries times now → k.accepts times v = true →
      k.accepts times ((withKey key (ownAttributes (b.document times now))).get (str name)) =
        true := by
    rintro name v k hsystem hmem hv
    have hkey : str name ≠ keyName := fun h => hsystem (h ▸ List.mem_cons_self)
    rwa [get_withKey, if_neg hkey, get_ownAttributes hsystem, RoleBody.get_document hmem]
  have hscopes : (Kind.record (scopeNames.map fun name => (str name, .list .text))).accepts times
      b.scopesValue = true := by
    rw [RoleBody.scopesValue, Kind.accepts, acceptsFields_iff]
    intro f hf
    obtain ⟨name, -, rfl⟩ := List.mem_map.mp hf
    -- what is not there is nil
    obtain ⟨ss, hss⟩ : ∃ ss, entryValue (scopeNames.map fun name =>
        (str name, sliceValue (b.scopes name))) (str name) = sliceValue ss := by
      rw [entryValue]
      rcases hfind : (scopeNames.map fun name => (str name, sliceValue (b.scopes name))).find?
          fun kv => kv.1 = str name with _ | kv
      · exact ⟨none, by rw [hfind]; rfl⟩
      · obtain ⟨name', -, rfl⟩ := List.mem_map.mp (List.mem_of_find?_eq_some hfind)
        exact ⟨b.scopes name', by rw [hfind]; rfl⟩
    rw [hss]
    exact accepts_sliceValue ss
  rw [Document.reads_iff]
  simp only [roleFields, List.forall_mem_cons, List.not_mem_nil, false_imp_iff, implies_true, and_true]
  refine ⟨?_, haccepts _ (.str b.roleID) _ ?_ ?_ rfl, haccepts _ (.str b.tenantID) _ ?_ ?_ rfl,
    haccepts _ (.str b.name) _ ?_ ?_ rfl,
    haccepts _ (sliceValue b.permissions) _ ?_ ?_ (accepts_sliceValue _),
    haccepts _ b.scopesValue _ ?_ ?_ hscopes,
    haccepts _ (sliceValue b.members) _ ?_ ?_ (accepts_sliceValue _),
    haccepts _ (.bool b.isBuiltin) _ ?_ ?_ rfl,
    haccepts _ (.str (times.text now)) _ ?_ ?_ (times.reads_text now),
    haccepts _ (.str (times.text now)) _ ?_ ?_ (times.reads_text now)⟩
  · rw [get_withKey, if_pos (by decide)]
    rfl
  all_goals first | decide | simp [RoleBody.entries]

/-- A role that is created, as it is stored. -/
theorem Role.ofDocument_created (now : Time) (b : RoleBody) :
    Role.ofDocument (ownAttributes (b.document times now)) =
      ⟨some b.tenantID, b.permissions.getD [], b.members.getD []⟩ := by
  have hget : ∀ (name : String) (v : Value), str name ∉ Document.systemNames →
      (name, v) ∈ b.entries times now →
      (ownAttributes (b.document times now)).get (str name) = v := fun name v hsystem hmem => by
    rw [get_ownAttributes hsystem, RoleBody.get_document hmem]
  rw [Role.ofDocument, hget "tenant_id" (.str b.tenantID) (by decide) (by simp [RoleBody.entries]),
    membersOf, texts_sliceValue (hget "permissions" (sliceValue b.permissions) (by decide)
      (by simp [RoleBody.entries])),
    texts_sliceValue (hget "members" (sliceValue b.members) (by decide) (by simp [RoleBody.entries]))]
  rfl

/-- The roles that are listed where every role can be read. -/
theorem run_listRoles_of_readable (hok : ∀ i, (answers i).outcome = .ok) (h : Readable times db)
    (tenantID : GoString) : Prog.run (serveAll answers) (listRoles times tenantID) db =
      (some (.ok (matching (answers (Call.mk (.findAll .rbacRoles (ownedBy tenantID)) [])).order
        (db .rbacRoles) (ownedBy tenantID))), db) := by
  rw [run_listRoles hok, if_pos]
  intro d hd
  obtain ⟨key, own, hown, -, rfl⟩ := mem_matching_iff.mp hd
  exact h key own hown

/-- A member is added to a role of the tenant with the empty name, and to no other. -/
theorem run_addMember (hok : ∀ i, (answers i).outcome = .ok) (h : Readable times db)
    (key userID : GoString) : Prog.run (serveAll answers) (addMember times now key userID) db =
      match (db .rbacRoles)[key]?.filter (ownedBy []) with
      | none => (some (.error (str "role " ++ key ++ str " not found")), db)
      | some own => if userID ∈ membersOf own then (some (.ok ()), db)
        else (some (.ok ()), db.set .rbacRoles ((db .rbacRoles).insert key
          (own.patch (stamp times now (membersPatch (some (membersOf own ++ [userID]))))))) := by
  rw [addMember, Prog.run_bind, run_listRoles_of_readable hok h]
  dsimp only
  rw [roleOfKey_matching]
  rcases hfound : (db .rbacRoles)[key]?.filter (ownedBy []) with _ | own
  · rfl
  · obtain ⟨hown, -⟩ := Option.filter_eq_some_iff.mp hfound
    simp only [Option.map_some, membersOf_withKey]
    split_ifs
    · rfl
    · rw [run_patchByKey_of_ok hok, hown]

/-- A member is removed from a role of the tenant with the empty name, and from no other. -/
theorem run_removeMember (hok : ∀ i, (answers i).outcome = .ok) (h : Readable times db)
    (key userID : GoString) : Prog.run (serveAll answers) (removeMember times now key userID) db =
      match (db .rbacRoles)[key]?.filter (ownedBy []) with
      | none => (some (.error (str "role " ++ key ++ str " not found")), db)
      | some own => (some (.ok ()), db.set .rbacRoles ((db .rbacRoles).insert key (own.patch (stamp
          times now (membersPatch (appended ((membersOf own).filter (· ≠ userID)))))))) := by
  rw [removeMember, Prog.run_bind, run_listRoles_of_readable hok h]
  dsimp only
  rw [roleOfKey_matching]
  rcases hfound : (db .rbacRoles)[key]?.filter (ownedBy []) with _ | own
  · rfl
  · obtain ⟨hown, -⟩ := Option.filter_eq_some_iff.mp hfound
    simp only [Option.map_some, membersOf_withKey]
    rw [run_patchByKey_of_ok hok, hown]

/-- What a check says where every role can be read. -/
theorem run_check (hok : ∀ i, (answers i).outcome = .ok) (h : Readable times db)
    (userID tenantID permission : GoString) :
    ∃ allowed, Prog.run (serveAll answers) (check times userID tenantID permission) db =
        (some (.ok allowed), db) ∧
      (allowed = true ↔ Allowed (rolesOf db) userID tenantID permission) := by
  refine ⟨(matching (answers (Call.mk (.findAll .rbacRoles (ownedBy tenantID)) [])).order
    (db .rbacRoles) (ownedBy tenantID)).any fun d => userID ∈ membersOf d && permits d permission,
    ?_, ?_⟩
  · rw [check, Prog.run_bind, run_listRoles_of_readable hok h]
    rfl
  · simp only [List.any_eq_true, Bool.and_eq_true, decide_eq_true_eq, permits_iff, mem_matching_iff]
    constructor
    · rintro ⟨d, ⟨key, own, hown, htenant, rfl⟩, hmember, p, hp, hgrants⟩
      rw [membersOf_withKey] at hmember
      rw [Document.texts_eq, get_withKey, if_neg (by decide), ← Document.texts_eq] at hp
      exact ⟨key, Role.ofDocument own, rolesOf_of_some hown, tenant_ofDocument_iff.mpr htenant,
        hmember, p, hp, hgrants⟩
    · rintro ⟨key, role, hrole, htenant, hmember, p, hp, hgrants⟩
      obtain ⟨own, hown, rfl⟩ := Option.map_eq_some_iff.mp hrole
      refine ⟨withKey key own, ⟨key, own, hown, tenant_ofDocument_iff.mp htenant, rfl⟩, ?_, p, ?_,
        hgrants⟩
      · rw [membersOf_withKey]
        exact hmember
      · rw [Document.texts_eq, get_withKey, if_neg (by decide), ← Document.texts_eq]
        exact hp

theorem Readable.insert (h : Readable times db)
    (hown : (withKey key own).Reads times roleFields) :
    Readable times (db.set .rbacRoles ((db .rbacRoles).insert key own)) := by
  rw [Readable, DocStore.set_self]
  exact GoMap.Each.insert h hown

theorem Readable.erase (h : Readable times db) (key : GoString) :
    Readable times (db.set .rbacRoles ((db .rbacRoles).erase key)) := by
  rw [Readable, DocStore.set_self]
  exact GoMap.Each.erase h key

/-- A role of the tenant with the empty name is found. -/
theorem filter_ownedBy (h : ∀ own : Document, (db .rbacRoles)[key]? = some own →
    ownedBy [] own = true) : (db .rbacRoles)[key]?.filter (ownedBy []) = (db .rbacRoles)[key]? := by
  rcases hown : (db .rbacRoles)[key]? with _ | own
  · rfl
  · rw [Option.filter_some, if_pos (h own hown)]

/-- Roles that can be read, and are these. -/
structure Holds (times : TimeFormat) (db : DocStore) (roles : Roles) : Prop where
  readable : Readable times db
  roles : rolesOf db = roles

theorem holds_change_of_none (h : Readable times db) (hown : (db .rbacRoles)[key]? = none)
    (f : Role → Role) : Holds times db ((rolesOf db).change key f) :=
  ⟨h, (Roles.change_of_none (rolesOf_of_none hown)).symm⟩

theorem holds_change_of_some (h : Readable times db) (hown : (db .rbacRoles)[key]? = some own)
    {p : Document} (hreads : (withKey key (own.patch p)).Reads times roleFields) {f : Role → Role}
    (hf : f (.ofDocument own) = (Role.ofDocument own).patched p) :
    Holds times (db.set .rbacRoles ((db .rbacRoles).insert key (own.patch p)))
      ((rolesOf db).change key f) where
  readable := h.insert hreads
  roles := by
    rw [rolesOf_set, Role.ofDocument_patch, Roles.change_of_some (rolesOf_of_some hown), hf]

theorem getD_appended (ss : List GoString) : (appended ss).getD [] = ss := by
  rw [appended]
  split_ifs with h
  · exact h.symm
  · rfl

theorem leaves_create (h : Readable times db) (hok : ∀ i, (answers i).outcome = .ok)
    (tenantID : GoString) (b : RoleBody) :
    Holds times (Prog.run (serveAll answers) (handleCreate times now tenantID b) db).2
      ((RoleRequest.create tenantID b).leaves (newKey (answers (Call.mk (.create .rbacRoles b.key
        (({ b with tenantID } : RoleBody).document times now)) [])) b.key) (rolesOf db)) := by
  rw [handleCreate, Prog.run_bind, serviceCreate, RoleRequest.leaves]
  by_cases hbuiltin : b.isBuiltin = true
  · rw [if_pos hbuiltin, if_pos (.inl hbuiltin)]
    exact ⟨h, rfl⟩
  · rw [if_neg hbuiltin, Prog.run_bind, run_createDoc_of_ok hok]
    generalize newKey _ b.key = key
    rcases hown : (db .rbacRoles)[key]? with _ | own
    · have hnew : ¬(b.isBuiltin = true ∨ rolesOf db key ≠ none) := by
        rintro (hb | hne)
        · exact hbuiltin hb
        · exact hne (rolesOf_of_none hown)
      rw [if_neg hnew]
      refine ⟨h.insert (reads_created now _ key), ?_⟩
      rw [← @Role.ofDocument_created times now { b with tenantID }]
      exact rolesOf_set ..
    · rw [if_pos (.inr (by rw [rolesOf_of_some hown]; exact Option.some_ne_none _))]
      exact ⟨h, rfl⟩

theorem leaves_update (h : Readable times db) (hok : ∀ i, (answers i).outcome = .ok)
    (patch : Option Document) (hpatch : ∀ p, patch = some p → ∀ own : Document,
      (db .rbacRoles)[key]? = some own →
        (withKey key (own.patch (stamp times now p))).Reads times roleFields) (newKey : GoString) :
    Holds times (Prog.run (serveAll answers) (handleUpdate times now key patch) db).2
      ((RoleRequest.update key patch).leaves newKey (rolesOf db)) := by
  rcases patch with _ | p
  · exact ⟨h, rfl⟩
  · rw [handleUpdate, Prog.run_bind, serviceUpdate, run_patchByKey_of_ok hok]
    rcases hown : (db .rbacRoles)[key]? with _ | own
    · exact holds_change_of_none h hown _
    · exact holds_change_of_some h hown (hpatch p rfl own hown) (Role.patched_stamp ..).symm

theorem leaves_delete (h : Readable times db) (hok : ∀ i, (answers i).outcome = .ok)
    (newKey : GoString) : Holds times (Prog.run (serveAll answers) (handleDelete key) db).2
      ((RoleRequest.delete key).leaves newKey (rolesOf db)) := by
  rw [handleDelete, Prog.run_bind, run_deleteByKey_of_ok hok]
  rcases hown : (db .rbacRoles)[key]? with _ | own
  · exact ⟨h, (Function.update_eq_self_iff.mpr (rolesOf_of_none hown).symm).symm⟩
  · exact ⟨h.erase key, rolesOf_erase db key⟩

theorem leaves_addMember (h : Readable times db) (hok : ∀ i, (answers i).outcome = .ok)
    (hfound : ∀ own : Document, (db .rbacRoles)[key]? = some own → ownedBy [] own = true)
    (userID newKey : GoString) :
    Holds times (Prog.run (serveAll answers) (handleAddMember times now key userID) db).2
      ((RoleRequest.addMember key userID).leaves newKey (rolesOf db)) := by
  rw [handleAddMember, Prog.run_bind, run_addMember hok h, filter_ownedBy hfound]
  rcases hown : (db .rbacRoles)[key]? with _ | own
  · exact holds_change_of_none h hown _
  · dsimp only
    by_cases hmember : userID ∈ membersOf own
    · have hsame : Role.withMember userID (.ofDocument own) = .ofDocument own := if_pos hmember
      rw [if_pos hmember]
      refine ⟨h, ?_⟩
      rw [RoleRequest.leaves, Roles.change_of_some (rolesOf_of_some hown), hsame]
      exact (Function.update_eq_self_iff.mpr (rolesOf_of_some hown).symm).symm
    · rw [if_neg hmember]
      refine holds_change_of_some h hown (reads_membersPatch (h key own hown) _) ?_
      rw [Role.patched_stamp, Role.patched_membersPatch]
      exact if_neg hmember

theorem leaves_removeMember (h : Readable times db) (hok : ∀ i, (answers i).outcome = .ok)
    (hfound : ∀ own : Document, (db .rbacRoles)[key]? = some own → ownedBy [] own = true)
    (userID newKey : GoString) :
    Holds times (Prog.run (serveAll answers) (handleRemoveMember times now key userID) db).2
      ((RoleRequest.removeMember key userID).leaves newKey (rolesOf db)) := by
  rw [handleRemoveMember, Prog.run_bind, run_removeMember hok h, filter_ownedBy hfound]
  rcases hown : (db .rbacRoles)[key]? with _ | own
  · exact holds_change_of_none h hown _
  · refine holds_change_of_some h hown (reads_membersPatch (h key own hown) _) ?_
    rw [Role.patched_stamp, Role.patched_membersPatch, getD_appended]
    rfl

/-- **A request leaves of the roles what it asks for.** -/
theorem serve_leaves {t : Turn} (h : Readable times db) (ht : Meets times db t) :
    Holds times (t.serve times db).2 (t.req.leaves (t.key times) (rolesOf db)) := by
  obtain ⟨req, now, answers⟩ := t
  obtain ⟨hok, hreq⟩ := ht
  cases req with
  | create tenantID body => exact leaves_create h hok tenantID body
  | update key patch =>
    refine leaves_update h hok patch ?_ _
    rintro p rfl
    exact hreq
  | delete key => exact leaves_delete h hok _
  | addMember key userID => exact leaves_addMember h hok hreq userID _
  | removeMember key userID => exact leaves_removeMember h hok hreq userID _

/-- **The members of a role can be edited exactly if it is of the tenant with the empty name.** -/
theorem succeeds_iff {t : Turn} (h : Readable times db) (hok : ∀ i, (t.answers i).outcome = .ok)
    (hedits : t.req.edits = some key) (hown : (db .rbacRoles)[key]? = some own) :
    Succeeds (t.serve times db).1 ↔ ownedBy [] own = true := by
  obtain ⟨req, now, answers⟩ := t
  rw [Turn.serve]
  cases req with
  | create tenantID body => cases hedits
  | update key patch => cases hedits
  | delete key => cases hedits
  | addMember key userID =>
    cases hedits
    rw [RoleRequest.program, handleAddMember, Prog.run_bind, run_addMember hok h, hown,
      Option.filter_some]
    by_cases howned : ownedBy [] own = true
    · rw [if_pos howned]
      dsimp only
      refine iff_of_true ?_ howned
      split_ifs <;> exact trivial
    · rw [if_neg howned]
      exact iff_of_false id howned
  | removeMember key userID =>
    cases hedits
    rw [RoleRequest.program, handleRemoveMember, Prog.run_bind, run_removeMember hok h, hown,
      Option.filter_some]
    by_cases howned : ownedBy [] own = true
    · rw [if_pos howned]
      exact iff_of_true trivial howned
    · rw [if_neg howned]
      exact iff_of_false id howned

end Turn

/-! ### A run -/

section Run

variable {times : TimeFormat} {db₀ db : DocStore} {hist : Run.History DocStore Turn}

/-- The roles of a run are those that its requests have left. -/
theorem holds_leftBy (hreads : Readable times db₀)
    (h : Run.Reach (step times) (fun _ => Meets times) db₀ hist db) :
    Holds times db (leftBy times (rolesOf db₀) hist) := by
  refine @Run.Reach.invariant _ _ _ _ _
    (fun hist db => Holds times db (leftBy times (rolesOf db₀) hist)) ⟨hreads, rfl⟩ ?_ _ _ h
  rintro hist db db' t ⟨hreadable, hroles⟩ hmeets hstep
  cases hstep
  rw [leftBy, ← hroles]
  exact serve_leaves hreadable hmeets

/-- A role that reads alerts. -/
def analysts : RoleBody where
  key := str "r-1"
  name := str "Analysts"
  permissions := some [str "alerts:*"]

/-- The request that creates it in a tenant. -/
def createAnalysts (tenantID : GoString) : Turn where
  req := .create tenantID analysts

/-- The request that adds a member to it. -/
def addAnalyst : Turn where
  req := .addMember (str "r-1") (str "u-1")

/-- No roles. -/
def noRoles : DocStore := fun _ => ∅

theorem readable_noRoles : Readable times noRoles := by
  intro key own hown
  rw [noRoles, Std.ExtTreeMap.getElem?_empty] at hown
  cases hown

theorem meets_createAnalysts (tenantID : GoString) (db : DocStore) :
    Meets times db (createAnalysts tenantID) := ⟨fun _ => rfl, trivial⟩

/-- The role as it is created. -/
theorem rolesOf_createAnalysts (tenantID : GoString) :
    rolesOf ((createAnalysts tenantID).serve times noRoles).2 (str "r-1") =
      some ⟨some tenantID, [str "alerts:*"], []⟩ := by
  rw [(serve_leaves readable_noRoles (meets_createAnalysts tenantID _)).roles]
  rfl

end Run

end Rbac

end Auth

end Xsiam
