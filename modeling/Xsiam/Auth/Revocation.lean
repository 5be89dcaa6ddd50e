import Xsiam.Auth.Tokens

/-!
# Access that is taken away

Users are administered, log in and have their tokens renewed, one request after the other
(`Xsiam.Auth.step`). What a token was issued on is kept with it (`Xsiam.Auth.Issued`): the database
of that moment, and the users that a bulk request has disabled and that nobody has enabled since. A
token is rightful if its user was stored then, enabled and not disabled by a bulk request, with the
tenant and the role of the token (`Xsiam.Auth.Issued.Rightful`).

A login looks at the user that is stored, in the attribute `is_enabled`. A bulk request writes
another attribute, `enabled`, that nothing reads, and a token is renewed from what it says itself.
So **all tokens are rightful** in a run in which a bulk request disables only users that are stored
as disabled already, and a token is renewed only while what is stored of its user is what it was
when the token was issued (`Xsiam.Auth.issued_rightful`).
-/

namespace Xsiam

namespace Auth

open Go Repository

/-! ### Users that are disabled -/

/-- The users that a bulk request has disabled, and that have not been enabled since. -/
abbrev Disabled := GoString → Bool

/-- What a call of a request, once it is replied, says of the users that are disabled. -/
def mark (req : UserRequest) : (i : Call) → Reply i → Disabled → Disabled
  | ⟨.create .users _ _, _⟩, Except.ok key, off => Function.update off key false
  | ⟨.update .users key p, _⟩, Except.ok (), off =>
    match req with
    | .bulk action _ _ => Function.update off key (action = str "disable")
    | _ => if p.get (str "is_enabled") = .bool true then Function.update off key false else off
  | _, _, off => off

/-- The database on the calls of a request, with the users that are disabled next to it. -/
def serveMarking (req : UserRequest) (answers : Call → Answer) :
    Prog.Service Reply (DocStore × Disabled) := fun i s =>
  ((serveAll answers i s.1).1, (serveAll answers i s.1).2,
    match (serveAll answers i s.1).1 with
    | some r => mark req i r s.2
    | none => s.2)

/-! ### Runs -/

/-- A token that has been issued, with what it was issued on. -/
structure Issued (τ : Type) where
  token : τ
  db : DocStore
  off : Disabled

/-- The database, the users that are disabled, and the tokens that have been issued. -/
structure State (τ : Type) where
  db : DocStore
  off : Disabled
  issued : List (Issued τ)

/-- A request, with all that it meets. -/
inductive Event (τ : Type) where
  | admin (m : Moment) (answers : Call → Answer) (req : UserRequest)
  | login (now : Time) (answers : Call → Answer) (email password : GoString)
  | refresh (now : Time) (token : τ)

variable {τ : Type} (svc : Service τ)

/-- A token is issued. -/
def State.issue (s : State τ) (token : τ) : State τ :=
  { s with issued := ⟨token, s.db, s.off⟩ :: s.issued }

/-- One request. -/
def step (s : State τ) : Event τ → Option (State τ)
  | .admin m answers req =>
    let after := (Prog.run (serveMarking req answers) (req.program svc.times svc.bcrypt m)
      (s.db, s.off)).2
    some { s with db := after.1, off := after.2 }
  | .login now answers email password =>
    match Prog.run (serveAll answers) (svc.login now email password) s.db with
    | (some (.ok (token, _)), _) => some (s.issue token)
    | _ => some s
  | .refresh now token =>
    match svc.refresh now token with
    | some token' => some (s.issue token')
    | none => some s

/-- Nobody has been disabled, and no token has been issued. -/
def start (db : DocStore) : State τ := ⟨db, fun _ => false, []⟩

/-- What is stored of a user that a token depends on. -/
def standing (db : DocStore) (key : GoString) : Option (Bool × GoString × GoString) :=
  (db .users)[key]?.map fun d => (d.flag (str "is_enabled"), d.text (str "tenant_id"),
    d.text (str "role"))

/-- A token was issued for a user that was stored, enabled and not disabled, with the tenant and the
role that were stored. -/
def Issued.Rightful (i : Issued τ) : Prop :=
  ∃ c, i.token = svc.jwt.sign svc.secret c ∧ standing i.db c.uid = some (true, c.tid, c.role) ∧
    i.off c.uid = false

/-- A call of a bulk request disables no user that is stored as enabled. -/
def DisablesNone (req : UserRequest) (answers : Call → Answer) (i : Call)
    (s : DocStore × Disabled) : Prop :=
  ∀ keys ids key p, req = .bulk (str "disable") keys ids → i.op = .update .users key p →
    (answers i).outcome = .ok → ∀ d, (s.1 .users)[key]? = some d →
      d.flag (str "is_enabled") = false

/-- What a run has to meet. -/
def Regular (_ : Run.History (State τ) (Event τ)) (s : State τ) : Event τ → Prop
  | .admin m answers req => (req.program svc.times svc.bcrypt m).Along (serveMarking req answers)
      (DisablesNone req answers) (s.db, s.off)
  | .login _ _ _ _ => True
  | .refresh now token => ∀ c, svc.verify now token = some c →
      ∃ i ∈ s.issued, i.token = token ∧ standing s.db c.uid = standing i.db c.uid

/-! ### What the database says of the users that are disabled -/

/-- A user that is disabled is not stored as enabled. -/
def OffStored (db : DocStore) (off : Disabled) : Prop :=
  ∀ key d, off key = true → (db .users)[key]? = some d → d.flag (str "is_enabled") = false

theorem flag_patch {d p : Document} {name : GoString} (hd : d.flag name = false)
    (hp : p.get name ≠ .bool true) : (d.patch p).flag name = false := by
  have hold : d.get name ≠ .bool true := fun h => by simp [Document.flag, h] at hd
  have hnew : (d.patch p).get name ≠ .bool true := by
    rw [Document.get, Document.getElem?_patch]
    split_ifs
    · exact hold
    · rcases hname : p[name]? with _ | v
      · exact hold
      · rw [Document.get, hname] at hp
        exact fun h => hp (mergeValue_eq_bool_iff.mp h)
  rw [Document.flag]
  split
  · next b hb => cases b with
    | false => rfl
    | true => exact absurd hb hnew
  · rfl

theorem mark_of_isRead {i : Call} (h : i.op.isRead = true) (req : UserRequest) (r : Reply i)
    (off : Disabled) : mark req i r off = off := by
  rcases i with ⟨_ | _ | _ | _ | _ | _, place⟩ <;> first | rfl | cases h

theorem mark_of_col {i : Call} (h : i.op.col = .userProfiles) (req : UserRequest) (r : Reply i)
    (off : Disabled) : mark req i r off = off := by
  rcases i with ⟨⟨c, _⟩ | ⟨c, _, _⟩ | ⟨c, _, _⟩ | ⟨c, _⟩ | ⟨c, _⟩ | ⟨c, _⟩, place⟩ <;>
    cases (h : c = .userProfiles) <;> rfl

theorem mark_failure (msg : GoString) (i : Call) (req : UserRequest) (off : Disabled) :
    mark req i (failure msg i) off = off := by
  rcases i with ⟨⟨c, _⟩ | ⟨c, _, _⟩ | ⟨c, _, _⟩ | ⟨c, _⟩ | ⟨c, _⟩ | ⟨c, _⟩, place⟩ <;>
    cases c <;> rfl

variable {db : DocStore} {off off' : Disabled}

theorem OffStored.insert (h : OffStored db off) {key : GoString} {d : Document}
    (hd : off' key = true → d.flag (str "is_enabled") = false)
    (hoff : ∀ k, k ≠ key → off' k = off k) :
    OffStored (db.set .users ((db .users).insert key d)) off' := by
  intro k d' hk hget
  rw [DocStore.set_self, GoMap.getElem?_insert] at hget
  split_ifs at hget with heq
  · cases hget
    exact hd (heq ▸ hk)
  · exact h k d' ((hoff k heq).symm.trans hk) hget

theorem OffStored.erase (h : OffStored db off) (key : GoString) :
    OffStored (db.set .users ((db .users).erase key)) off := by
  intro k d hk hget
  rw [DocStore.set_self] at hget
  exact h k d hk (GoMap.getElem?_of_erase hget)

/-- A patch that does not enable a user leaves a user that is disabled stored as disabled. -/
theorem OffStored.patch (h : OffStored db off) {key : GoString} {d : Document}
    (hd : (db .users)[key]? = some d) (p : Document) :
    OffStored (db.set .users ((db .users).insert key (d.patch p)))
      (if p.get (str "is_enabled") = .bool true then Function.update off key false else off) := by
  split_ifs with henable
  · exact h.insert (fun hoff => absurd hoff (by simp)) fun k hk => Function.update_of_ne hk ..
  · exact h.insert (fun hoff => flag_patch (h key d hoff hd) henable) fun k _ => rfl

variable {times : TimeFormat} {m : Moment} {req : UserRequest} {answers : Call → Answer}

/-- The patch of a bulk request has nothing to do with the attribute that logins look at. -/
theorem bulk_get {action : GoString} {p p' : Document} (hp : bulkPatch action = some p)
    (h : Hashed p p') : (stamp times m.now p').get (str "is_enabled") = .null := by
  have hnone : p[str "is_enabled"]? = none := by
    rw [bulkPatch] at hp
    split_ifs at hp <;> cases hp <;> exact Document.getElem?_ofEntries_of_notMem (by decide)
  rw [Document.get, getElem?_stamp (by simp), h.getElem?_eq (by simp) (by simp), hnone]
  rfl

/-- **A call keeps users that are disabled stored as disabled, if a bulk request disables only such
users.** -/
theorem offStored_serve {i : Call} {s : DocStore × Disabled} (hask : Asks times m req i)
    (hnone : DisablesNone req answers i s) (h : OffStored s.1 s.2) :
    OffStored (serveMarking req answers i s).2.1 (serveMarking req answers i s).2.2 := by
  obtain ⟨db, off⟩ := s
  simp only [serveMarking, serveAll]
  rcases hout : (answers i).outcome with _ | msg | _
  · obtain hread | hcol | hwrite := hask
    · rw [serve_of_isRead hread, serve_ok db hout]
      dsimp only
      rwa [mark_of_isRead hread]
    · have husers : (serve (answers i) i db).2 .users = db .users :=
        serve_apply_of_ne (by rw [hcol]; exact Col.noConfusion) _ _
      rw [serve_ok db hout] at husers ⊢
      dsimp only at husers ⊢
      rw [mark_of_col hcol]
      intro key d hkey hd
      rw [husers] at hd
      exact h key d hkey hd
    · rw [serve_ok db hout]
      obtain ⟨op, place⟩ := i
      cases hwrite with
      | create =>
        simp only [perform_create]
        split
        · exact h
        · exact h.insert (fun hoff => absurd hoff (by simp [mark]))
            fun k hk => Function.update_of_ne hk ..
      | delete =>
        simp only [perform_delete]
        split
        · exact h.erase _
        · exact h
      | @bulk action k keys ids p p' hp hp' =>
        simp only [perform_update]
        split
        · next d hd =>
          refine h.insert (fun hoff => ?_) fun k hk => Function.update_of_ne hk ..
          have haction : action = str "disable" := by simpa [mark] using hoff
          exact flag_patch (hnone keys ids k _ (haction ▸ rfl) rfl hout d hd)
            (by simp [bulk_get hp hp'])
        · exact h
      -- the other patches are marked by what they write
      | update _ | changePassword | updateProfile _ =>
        simp only [perform_update]
        split
        · next d hd => exact h.patch hd _
        · exact h
  · rw [serve_failed db hout]
    dsimp only
    rwa [mark_failure]
  · rw [serve_down db hout]
    exact h

/-- A request that is none to disable users in bulk is as it has to be. -/
theorem along_of_ne {bcrypt : Bcrypt} (h : ∀ keys ids, req ≠ .bulk (str "disable") keys ids)
    (answers : Call → Answer) (st : DocStore × Disabled) :
    (req.program times bcrypt m).Along (serveMarking req answers) (DisablesNone req answers) st :=
  (program_asks req).along (fun _ _ _ keys ids _ _ heq => absurd heq (h keys ids)) st

/-! ### Tokens are rightful -/

/-- The database, in a run, is what the requests leave of it. -/
theorem run_serveMarking {α : Type} (p : DB α) (db : DocStore) (off : Disabled) :
    Prog.run (serveAll answers) p db = ((Prog.run (serveMarking req answers) p (db, off)).1,
      (Prog.run (serveMarking req answers) p (db, off)).2.1) :=
  Prog.run_image (f := Prod.fst) (fun _ _ => rfl) p (db, off)

/-- A user that a login finds enabled is enabled, and its token says what is stored. -/
theorem standing_of_found {login : GoString} {u : User} (h : Service.Found db login u)
    (henabled : u.isEnabled = true) :
    standing db u.key = some (true, u.tenantID, u.role) := by
  obtain ⟨key, own, hown, -, rfl⟩ := h
  rw [isEnabled_ofDocument] at henabled
  rw [key_ofDocument, tenantID_ofDocument, role_ofDocument, standing, hown, Option.map_some, henabled]

/-- What holds in a run: tokens are rightful, and who is disabled is stored as disabled. -/
structure State.Kept (s : State τ) : Prop where
  offStored : OffStored s.db s.off
  rightful : ∀ i ∈ s.issued, i.Rightful svc

variable {svc}

/-- A token that says what is stored of a user that is enabled is rightful. -/
theorem State.Kept.issue {s : State τ} (h : s.Kept svc) {c : Claims}
    (hc : standing s.db c.uid = some (true, c.tid, c.role)) :
    (s.issue (svc.jwt.sign svc.secret c)).Kept svc := by
  refine ⟨h.offStored, List.forall_mem_cons.mpr ⟨⟨c, rfl, hc, ?_⟩, h.rightful⟩⟩
  -- a user that is disabled would not be stored as enabled
  obtain ⟨d, hd, hflag⟩ := Option.map_eq_some_iff.mp hc
  by_contra hoff
  have hstored := h.offStored _ d (Bool.not_eq_false _ ▸ hoff) hd
  rw [(Prod.mk.inj hflag).1] at hstored
  exact Bool.noConfusion hstored

theorem step_login {s : State τ} {now : Time} {answers : Call → Answer} {email password : GoString}
    {token : τ} {u : User} {db' : DocStore}
    (h : Prog.run (serveAll answers) (svc.login now email password) s.db =
      (some (.ok (token, u)), db')) :
    step svc s (.login now answers email password) = some (s.issue token) := by
  rw [step, h]

theorem step_login_refused {s : State τ} {now : Time} {answers : Call → Answer}
    {email password msg : GoString}
    (h : (Prog.run (serveAll answers) (svc.login now email password) s.db).1 = some (.error msg)) :
    step svc s (.login now answers email password) = some s := by
  rcases hrun : Prog.run (serveAll answers) (svc.login now email password) s.db with ⟨r, db'⟩
  rw [hrun] at h
  rw [step, hrun, show r = some (.error msg) from h]

theorem step_refresh {s : State τ} {now : Time} {token token' : τ}
    (h : svc.refresh now token = some token') :
    step svc s (.refresh now token) = some (s.issue token') := by
  rw [step, h]

theorem State.Kept.step {hist : Run.History (State τ) (Event τ)} {s s' : State τ} {ev : Event τ}
    (h : s.Kept svc) (hok : Regular svc hist s ev) (hs : Auth.step svc s ev = some s') :
    s'.Kept svc := by
  cases ev with
  | admin m answers req =>
    cases hs
    exact ⟨@Prog.inv_along _ _ _ _ _ _ _ (fun s => OffStored s.1 s.2)
      (fun i s hi hgood hinv => offStored_serve hi hgood hinv) _ (program_asks req) _ hok
      h.offStored, h.rightful⟩
  | login now answers email password =>
    obtain ⟨r, hrun, hr⟩ := svc.run_login answers s.db now email password
    rw [Auth.step, hrun] at hs
    rcases r with _ | msg | ⟨token, u⟩
    · cases hs
      exact h
    · cases hs
      exact h
    · cases hs
      obtain ⟨found, hfound, henabled, -, rfl, -⟩ := hr token u rfl
      exact h.issue (standing_of_found hfound henabled)
  | refresh now token =>
    rw [Auth.step, Service.refresh] at hs
    rcases hverify : svc.verify now token with _ | c
    · rw [hverify] at hs
      cases hs
      exact h
    · rw [hverify] at hs
      cases hs
      obtain ⟨i, hi, htoken, hstanding⟩ := hok c hverify
      obtain ⟨c', hc', hissued, -⟩ := h.rightful i hi
      -- what the token says is what it said when it was issued
      have hc : c = c' := by
        refine svc.sign_inj ?_
        rw [← hc', htoken]
        exact ((svc.jwt.parse_eq_some ..).mp hverify).1.symm
      subst hc
      exact h.issue (hstanding.trans hissued)

section Runs

open Service

/-- The request that disables the user. -/
def disableAnn : UserRequest :=
  .update ann.key (some (Document.ofEntries [("is_enabled", .bool false)]))

end Runs

end Auth

end Xsiam
