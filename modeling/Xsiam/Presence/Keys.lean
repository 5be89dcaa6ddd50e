import Xsiam.Presence.Gc

/-!
# What stands under the keys of the registry

The keys of tenants hold sorted sets, those of instances hold sets, and those of leases
strings (`Xsiam.Presence.Typed`). That leaves one overlap: an instance whose ID starts with
`lease:` has its set under the key of another one's lease
(`Xsiam.Presence.keyFBLease_eq`), and whichever is written first stands in the way of the
other one.

Where the keys are typed, what the operations of the registry do can be said exactly, in
terms of the two things that matter: the scores of agents and the members of instances.
-/

namespace Xsiam

namespace Presence

open Go Redis Run

/-! ### Keys -/

/-- The instance whose set would have the key of a lease. -/
def leaseID (fbID : GoString) : GoString := str "lease:" ++ fbID

/-- **The key of a lease is the key of a set**, that of another instance. -/
theorem keyFBLease_eq (fbID : GoString) : keyFBLease fbID = keyFBSet (leaseID fbID) := by
  have hprefix : str "agent:fb:lease:" = str "agent:fb:" ++ str "lease:" := by decide
  rw [keyFBLease, keyFBSet, leaseID, hprefix, List.append_assoc]

theorem keyOnline_inj {t u : GoString} : keyOnline t = keyOnline u ↔ t = u :=
  List.append_right_inj _

theorem keyOnline_ne_keyFBLease (tenantID fbID : GoString) :
    keyOnline tenantID ≠ keyFBLease fbID := by
  rw [keyFBLease_eq]
  exact keyOnline_ne_keyFBSet tenantID _

/-! ### Types -/

/-- The keys that a type of value may stand under. -/
def Holds : Kind → GoString → Prop
  | .string, key => ∃ fbID, key = keyFBLease fbID
  | .set, key => ∃ fbID, key = keyFBSet fbID
  | .zset, key => ∃ tenantID, key = keyOnline tenantID

/-- Every key has the type that its name says, and only leases go away by themselves. -/
structure Typed (reg : Registry) : Prop where
  holds : ∀ key kind, reg.type key = some kind → Holds kind key
  lasting : Db.Lasting reg

namespace Typed

variable {reg reg' : Registry}

theorem empty (start : ℕ) (server : Server GoString) : Typed (.empty start server) := by
  constructor
  · intro key kind h
    rw [Db.type, Db.find?_empty] at h
    exact absurd h (by simp)
  · intro key e h
    rw [Db.find?_empty] at h
    exact absurd h (by simp)

/-- A key is written with a type it may have. -/
theorem ofWrites {key : GoString} {r : Option (Entry GoString)} (h : Typed reg)
    (hwrites : Db.Writes reg key r reg')
    (hr : ∀ e ∈ r, Holds e.value.kind key ∧ (e.value.kind ≠ .string → e.expireAt = none)) :
    Typed reg' := by
  refine ⟨fun key' kind htype => ?_, hwrites.lasting h.lasting fun e he => (hr e he).2⟩
  rw [hwrites.type] at htype
  split_ifs at htype with hkey
  · obtain ⟨e, he, rfl⟩ := Option.map_eq_some_iff.mp htype
    rw [hkey]
    exact (hr e he).1
  · exact h.holds key' kind htype

/-- A command that may fail changes nothing then. -/
theorem getD {r : Option Registry} (h : Typed reg) (hr : ∀ reg', r = some reg' → Typed reg') :
    Typed (r.getD reg) := by
  cases r with
  | none => exact h
  | some reg' => exact hr reg' rfl

theorem zadd (h : Typed reg) (tenantID ak : GoString) (at_ : ℕ) :
    Typed ((reg.zadd (keyOnline tenantID) ak at_).getD reg) := by
  refine h.getD fun reg' hzadd => ?_
  obtain ⟨z, x, hwrites, -, hx⟩ := Db.writes_zadd hzadd
  refine h.ofWrites hwrites ?_
  rintro e he
  obtain rfl := Option.some.inj he
  refine ⟨⟨tenantID, rfl⟩, fun hkind => ?_⟩
  rcases hx with hx | ⟨z', hfind⟩
  · exact hx
  · exact h.lasting.expiry hfind (by simp [Value.kind])

theorem sadd (h : Typed reg) (fbID ak : GoString) :
    Typed ((reg.sadd (keyFBSet fbID) ak).getD reg) := by
  refine h.getD fun reg' hsadd => ?_
  obtain ⟨ms, x, hwrites, -, hx⟩ := Db.writes_sadd hsadd
  refine h.ofWrites hwrites ?_
  rintro e he
  obtain rfl := Option.some.inj he
  refine ⟨⟨fbID, rfl⟩, fun hkind => ?_⟩
  rcases hx with hx | ⟨ms', hfind⟩
  · exact hx
  · exact h.lasting.expiry hfind (by simp [Value.kind])

theorem zrem (h : Typed reg) (tenantID : GoString) (aks : List GoString) :
    Typed ((reg.zrem (keyOnline tenantID) aks).getD reg) := by
  refine h.getD fun reg' hzrem => ?_
  obtain ⟨r, hwrites, -, hr⟩ := Db.writes_zrem hzrem
  refine h.ofWrites hwrites fun e he => ?_
  obtain ⟨hkind, z', hfind⟩ := hr e he
  exact ⟨hkind ▸ ⟨tenantID, rfl⟩, fun _ => h.lasting.expiry hfind (by simp [Value.kind])⟩

theorem srem (h : Typed reg) (fbID ak : GoString) :
    Typed ((reg.srem (keyFBSet fbID) ak).getD reg) := by
  refine h.getD fun reg' hsrem => ?_
  obtain ⟨r, hwrites, -, hr⟩ := Db.writes_srem hsrem
  refine h.ofWrites hwrites fun e he => ?_
  obtain ⟨hkind, ms', hfind⟩ := hr e he
  exact ⟨hkind ▸ ⟨fbID, rfl⟩, fun _ => h.lasting.expiry hfind (by simp [Value.kind])⟩

theorem touch (h : Typed reg) (tenantID ak fbID : GoString) : Typed (reg.touch tenantID ak fbID) :=
  (h.zadd tenantID ak reg.now).sadd fbID ak

theorem remove (h : Typed reg) (tenantID ak fbID : GoString) :
    Typed (reg.remove tenantID ak fbID) :=
  (h.zrem tenantID [ak]).srem fbID ak

theorem bulkRemove (h : Typed reg) (tenantID : GoString) (aks : List GoString) :
    Typed (reg.bulkRemove tenantID aks) := by
  rw [Registry.bulkRemove]
  split_ifs
  · exact h
  · exact h.zrem tenantID aks

theorem renewFB (h : Typed reg) (fbID : GoString) : Typed (reg.renewFB fbID) := by
  refine h.ofWrites (Db.writes_setEx (by decide)) fun e he => ?_
  obtain rfl := Option.some.inj he
  exact ⟨⟨fbID, rfl⟩, fun hkind => absurd rfl hkind⟩

theorem deleteFBSet (h : Typed reg) (fbID : GoString) : Typed (reg.deleteFBSet fbID) :=
  h.ofWrites Db.writes_del fun e he => absurd he (by simp)

theorem wait (h : Typed reg) (ms : ℕ) : Typed (Db.wait reg ms) :=
  ⟨fun key kind htype => h.holds key kind (Db.type_wait htype), Db.lasting_wait h.lasting ms⟩

end Typed

theorem typed_exec {s : State} (h : Typed s.reg) (cmd : Cmd) : Typed (s.exec cmd).reg := by
  cases cmd with
  | bulkRemove tenantID agentKeys => exact h.bulkRemove tenantID agentKeys
  | bulkOffline _ _ => exact h
  | deleteFBSet fbID => exact h.deleteFBSet fbID

theorem typed_step {s s' : State} {ev : Event} (h : Typed s.reg) (hstep : step s ev = some s') :
    Typed s'.reg := by
  cases ev with
  | touch tenantID agentKey fbID =>
    obtain rfl := Option.some.inj hstep
    exact h.touch tenantID agentKey fbID
  | remove tenantID agentKey fbID =>
    obtain rfl := Option.some.inj hstep
    exact h.remove tenantID agentKey fbID
  | renewFB fbID =>
    obtain rfl := Option.some.inj hstep
    exact h.renewFB fbID
  | wait ms =>
    obtain rfl := Option.some.inj hstep
    exact h.wait ms
  | scan page =>
    obtain rfl := Option.some.inj hstep
    exact h
  | askLease fbID =>
    obtain rfl := step_askLease hstep
    exact h
  | sweepFB fbID ans =>
    obtain ⟨-, rfl⟩ := step_sweepFB hstep
    exact h
  | send n ok =>
    obtain ⟨fbID, cmd, cmds, -, rfl⟩ := step_send hstep
    split_ifs
    · exact @typed_exec { s with sweeps := s.sweeps.set n (fbID, cmds) } h cmd
    · exact h

/-- **The keys are typed in every state reached.** -/
theorem Typed.ofReach {ok : History State Event → State → Event → Prop} {start : ℕ}
    {server : Server GoString} {hist : History State Event} {s : State}
    (h : Reach step ok (.init start server) hist s) :
    Typed s.reg :=
  @Reach.invariant _ _ step ok (.init start server) (fun _ s => Typed s.reg) (Typed.empty start server)
    (fun hinv _ hstep => typed_step hinv hstep) hist s h

/-! ### What the operations do -/

namespace Registry

variable {reg : Registry}

/-- An instance has a set of agents. -/
def AgentSet (reg : Registry) (fbID : GoString) : Prop := Db.type reg (keyFBSet fbID) = some .set

/-- A lease stands under the key of an instance's set. -/
def LeaseInTheWay (reg : Registry) (fbID : GoString) : Prop :=
  Db.type reg (keyFBSet fbID) = some .string

theorem type_keyOnline (h : Typed reg) (tenantID : GoString) :
    Db.type reg (keyOnline tenantID) ≠ some .string ∧ Db.type reg (keyOnline tenantID) ≠ some .set := by
  constructor
  · intro htype
    obtain ⟨fbID, hkey⟩ := h.holds _ _ htype
    exact keyOnline_ne_keyFBLease tenantID fbID hkey
  · intro htype
    obtain ⟨fbID, hkey⟩ := h.holds _ _ htype
    exact keyOnline_ne_keyFBSet tenantID fbID hkey

theorem type_keyFBSet (h : Typed reg) (fbID : GoString) :
    Db.type reg (keyFBSet fbID) ≠ some .zset := by
  intro htype
  obtain ⟨tenantID, hkey⟩ := h.holds _ _ htype
  exact keyOnline_ne_keyFBSet tenantID fbID hkey.symm

/-- The sorted set of a tenant is always written. -/
theorem exists_zadd (h : Typed reg) (tenantID ak : GoString) (at_ : ℕ) :
    ∃ reg', reg.zadd (keyOnline tenantID) ak at_ = some reg' := by
  refine Option.ne_none_iff_exists'.mp fun hnone => ?_
  obtain ⟨hstring, hset⟩ := type_keyOnline h tenantID
  rcases Db.zadd_eq_none_iff.mp hnone with htype | htype
  · exact hstring htype
  · exact hset htype

theorem exists_zrem (h : Typed reg) (tenantID : GoString) (aks : List GoString) :
    ∃ reg', reg.zrem (keyOnline tenantID) aks = some reg' := by
  refine Option.ne_none_iff_exists'.mp fun hnone => ?_
  obtain ⟨hstring, hset⟩ := type_keyOnline h tenantID
  rcases Db.zrem_eq_none_iff.mp hnone with htype | htype
  · exact hstring htype
  · exact hset htype

/-! One command each, which may fail. -/

theorem score_zadd (h : Typed reg) (tenantID ak : GoString) (at_ : ℕ) (tid a : GoString) :
    score ((reg.zadd (keyOnline tenantID) ak at_).getD reg) tid a =
      if tid = tenantID ∧ a = ak then some at_ else reg.score tid a := by
  obtain ⟨reg', hzadd⟩ := exists_zadd h tenantID ak at_
  obtain ⟨z, x, hwrites, hz, -⟩ := Db.writes_zadd hzadd
  rw [hzadd, Option.getD_some, score, hwrites.zscore]
  by_cases htid : tid = tenantID
  · rw [if_pos (congrArg keyOnline htid), Option.bind_some, Value.score, hz, htid]
    simp [score]
  · rw [if_neg fun hkey => htid (keyOnline_inj.mp hkey), if_neg fun hc => htid hc.1, score]

theorem ownedBy_zadd (tenantID ak : GoString) (at_ : ℕ) (a fb : GoString) :
    ownedBy ((reg.zadd (keyOnline tenantID) ak at_).getD reg) a fb = reg.ownedBy a fb := by
  cases hzadd : reg.zadd (keyOnline tenantID) ak at_ with
  | none => rfl
  | some reg' =>
    obtain ⟨z, x, hwrites, -⟩ := Db.writes_zadd hzadd
    rw [Option.getD_some, ownedBy, hwrites.sismember,
      if_neg (keyOnline_ne_keyFBSet tenantID fb).symm, ownedBy]

theorem type_zadd (tenantID ak : GoString) (at_ : ℕ) (fb : GoString) :
    Db.type ((reg.zadd (keyOnline tenantID) ak at_).getD reg) (keyFBSet fb) =
      Db.type reg (keyFBSet fb) := by
  cases hzadd : reg.zadd (keyOnline tenantID) ak at_ with
  | none => rfl
  | some reg' =>
    obtain ⟨z, x, hwrites, -⟩ := Db.writes_zadd hzadd
    rw [Option.getD_some, hwrites.type, if_neg (keyOnline_ne_keyFBSet tenantID fb).symm]

theorem score_sadd (fbID ak tid a : GoString) :
    score ((reg.sadd (keyFBSet fbID) ak).getD reg) tid a = reg.score tid a := by
  cases hsadd : reg.sadd (keyFBSet fbID) ak with
  | none => rfl
  | some reg' =>
    obtain ⟨ms, x, hwrites, -⟩ := Db.writes_sadd hsadd
    rw [Option.getD_some, score, hwrites.zscore, if_neg (keyOnline_ne_keyFBSet tid fbID), score]

theorem ownedBy_sadd (h : Typed reg) (fbID ak a fb : GoString) :
    ownedBy ((reg.sadd (keyFBSet fbID) ak).getD reg) a fb = true ↔
      reg.ownedBy a fb = true ∨ (a = ak ∧ fb = fbID ∧ ¬reg.LeaseInTheWay fbID) := by
  have hnone : reg.sadd (keyFBSet fbID) ak = none ↔ _ ∨ _ := Db.sadd_eq_none_iff
  cases hsadd : reg.sadd (keyFBSet fbID) ak with
  | none =>
    have hway : reg.LeaseInTheWay fbID := (hnone.mp hsadd).resolve_right (type_keyFBSet h fbID)
    rw [Option.getD_none]
    tauto
  | some reg' =>
    have hway : ¬reg.LeaseInTheWay fbID := fun hc =>
      absurd (hsadd.symm.trans (hnone.mpr (Or.inl hc))) (by simp)
    obtain ⟨ms, x, hwrites, hms, -⟩ := Db.writes_sadd hsadd
    rw [Option.getD_some, ownedBy, hwrites.sismember]
    by_cases hfb : fb = fbID
    · rw [if_pos (congrArg keyFBSet hfb), Option.any_some, Value.mem, hms, hfb]
      simp [ownedBy, hway]
    · rw [if_neg fun hkey => hfb (keyFBSet_inj.mp hkey)]
      simp [ownedBy, hfb]

theorem score_zrem (h : Typed reg) (tenantID : GoString) (aks : List GoString) (tid a : GoString) :
    score ((reg.zrem (keyOnline tenantID) aks).getD reg) tid a =
      if tid = tenantID ∧ a ∈ aks then none else reg.score tid a := by
  obtain ⟨reg', hzrem⟩ := exists_zrem h tenantID aks
  obtain ⟨r, hwrites, hr, -⟩ := Db.writes_zrem hzrem
  rw [hzrem, Option.getD_some, score, hwrites.zscore]
  by_cases htid : tid = tenantID
  · rw [if_pos (congrArg keyOnline htid), hr, htid]
    simp [score]
  · rw [if_neg fun hkey => htid (keyOnline_inj.mp hkey), if_neg fun hc => htid hc.1, score]

theorem ownedBy_zrem (tenantID : GoString) (aks : List GoString) (a fb : GoString) :
    ownedBy ((reg.zrem (keyOnline tenantID) aks).getD reg) a fb = reg.ownedBy a fb := by
  cases hzrem : reg.zrem (keyOnline tenantID) aks with
  | none => rfl
  | some reg' =>
    obtain ⟨r, hwrites, -⟩ := Db.writes_zrem hzrem
    rw [Option.getD_some, ownedBy, hwrites.sismember,
      if_neg (keyOnline_ne_keyFBSet tenantID fb).symm, ownedBy]

theorem score_srem (fbID ak tid a : GoString) :
    score ((reg.srem (keyFBSet fbID) ak).getD reg) tid a = reg.score tid a := by
  cases hsrem : reg.srem (keyFBSet fbID) ak with
  | none => rfl
  | some reg' =>
    obtain ⟨r, hwrites, -⟩ := Db.writes_srem hsrem
    rw [Option.getD_some, score, hwrites.zscore, if_neg (keyOnline_ne_keyFBSet tid fbID), score]

theorem ownedBy_srem (fbID ak a fb : GoString) :
    ownedBy ((reg.srem (keyFBSet fbID) ak).getD reg) a fb = true ↔
      reg.ownedBy a fb = true ∧ ¬(a = ak ∧ fb = fbID) := by
  cases hsrem : reg.srem (keyFBSet fbID) ak with
  | none =>
    -- a key of another type has no members
    have hfalse : reg.ownedBy ak fbID = false := by
      refine Db.sismember_eq_false ?_
      rcases Db.srem_eq_none_iff.mp hsrem with htype | htype
      · simp [htype]
      · simp [htype]
    rw [Option.getD_none]
    refine ⟨fun howned => ⟨howned, ?_⟩, And.left⟩
    rintro ⟨rfl, rfl⟩
    exact absurd (hfalse.symm.trans howned) (by simp)
  | some reg' =>
    obtain ⟨r, hwrites, hr, -⟩ := Db.writes_srem hsrem
    rw [Option.getD_some, ownedBy, hwrites.sismember]
    by_cases hfb : fb = fbID
    · rw [if_pos (congrArg keyFBSet hfb), hr, hfb]
      simp [ownedBy]
    · rw [if_neg fun hkey => hfb (keyFBSet_inj.mp hkey)]
      simp [ownedBy, hfb]

/-! The operations. -/

theorem now_getD {r : Option Registry} (h : ∀ reg', r = some reg' → reg'.now = reg.now) :
    (r.getD reg).now = reg.now := by
  cases r with
  | none => rfl
  | some reg' => exact h reg' rfl

theorem now_touch (tenantID ak fbID : GoString) : (reg.touch tenantID ak fbID).now = reg.now := by
  refine (now_getD fun reg' hsadd => ?_).trans (now_getD fun reg' hzadd => ?_)
  · obtain ⟨ms, x, hwrites, -⟩ := Db.writes_sadd hsadd
    exact hwrites.now
  · obtain ⟨z, x, hwrites, -⟩ := Db.writes_zadd hzadd
    exact hwrites.now

theorem now_remove (tenantID ak fbID : GoString) : (reg.remove tenantID ak fbID).now = reg.now := by
  refine (now_getD fun reg' hsrem => ?_).trans (now_getD fun reg' hzrem => ?_)
  · obtain ⟨ms, hwrites, -⟩ := Db.writes_srem hsrem
    exact hwrites.now
  · obtain ⟨z, hwrites, -⟩ := Db.writes_zrem hzrem
    exact hwrites.now

theorem now_renewFB (fbID : GoString) : (reg.renewFB fbID).now = reg.now :=
  (Db.writes_setEx (by decide)).now

/-- **`Touch` scores the agent.** -/
theorem score_touch (h : Typed reg) (tenantID ak fbID tid a : GoString) :
    (reg.touch tenantID ak fbID).score tid a =
      if tid = tenantID ∧ a = ak then some reg.now else reg.score tid a := by
  rw [touch, score_sadd, score_zadd h]

/-- **`Touch` makes the agent a member of its instance**, unless a lease is in the way. -/
theorem ownedBy_touch_iff (h : Typed reg) (tenantID ak fbID a fb : GoString) :
    (reg.touch tenantID ak fbID).ownedBy a fb = true ↔
      reg.ownedBy a fb = true ∨ (a = ak ∧ fb = fbID ∧ ¬reg.LeaseInTheWay fbID) := by
  rw [touch, ownedBy_sadd (h.zadd tenantID ak reg.now), ownedBy_zadd, LeaseInTheWay, type_zadd,
    LeaseInTheWay]

theorem score_remove (h : Typed reg) (tenantID ak fbID tid a : GoString) :
    (reg.remove tenantID ak fbID).score tid a =
      if tid = tenantID ∧ a = ak then none else reg.score tid a := by
  rw [remove, score_srem, score_zrem h]
  simp

theorem ownedBy_remove_iff (tenantID ak fbID a fb : GoString) :
    (reg.remove tenantID ak fbID).ownedBy a fb = true ↔
      reg.ownedBy a fb = true ∧ ¬(a = ak ∧ fb = fbID) := by
  rw [remove, ownedBy_srem, ownedBy_zrem]

theorem score_bulkRemove_eq (h : Typed reg) (tenantID : GoString) (aks : List GoString)
    (tid a : GoString) : (reg.bulkRemove tenantID aks).score tid a =
      if tid = tenantID ∧ a ∈ aks then none else reg.score tid a := by
  rw [bulkRemove]
  split_ifs with hnil hmem hmem
  · rw [hnil] at hmem
    exact absurd hmem.2 List.not_mem_nil
  · rfl
  · rw [score_zrem h, if_pos hmem]
  · rw [score_zrem h, if_neg hmem]

theorem ownedBy_bulkRemove (tenantID : GoString) (aks : List GoString) (a fb : GoString) :
    (reg.bulkRemove tenantID aks).ownedBy a fb = reg.ownedBy a fb := by
  rw [bulkRemove]
  split_ifs
  · rfl
  · exact ownedBy_zrem tenantID aks a fb

theorem ownedBy_deleteFBSet_iff (fbID a fb : GoString) :
    (reg.deleteFBSet fbID).ownedBy a fb = true ↔ reg.ownedBy a fb = true ∧ fb ≠ fbID := by
  rw [deleteFBSet, ownedBy, Db.writes_del.sismember]
  by_cases hfb : fb = fbID
  · simp [hfb]
  · rw [if_neg fun hkey => hfb (keyFBSet_inj.mp hkey)]
    simp [ownedBy, hfb]

theorem score_renewFB (fbID tid a : GoString) : (reg.renewFB fbID).score tid a = reg.score tid a := by
  rw [renewFB, score, (Db.writes_setEx (by decide)).zscore,
    if_neg (keyOnline_ne_keyFBLease tid fbID), score]

/-- **Renewing a lease takes its agents from the instance that has the key.** -/
theorem ownedBy_renewFB_iff (fbID a fb : GoString) :
    (reg.renewFB fbID).ownedBy a fb = true ↔ reg.ownedBy a fb = true ∧ fb ≠ leaseID fbID := by
  rw [renewFB, ownedBy, (Db.writes_setEx (by decide)).sismember, keyFBLease_eq]
  by_cases hfb : fb = leaseID fbID
  · simp [hfb, Value.mem]
  · rw [if_neg fun hkey => hfb (keyFBSet_inj.mp hkey)]
    simp [ownedBy, hfb]

theorem score_wait (h : Typed reg) (ms : ℕ) (tid a : GoString) :
    score (Db.wait reg ms) tid a = reg.score tid a := Db.zscore_wait h.lasting ms

theorem ownedBy_wait (h : Typed reg) (ms : ℕ) (a fb : GoString) :
    ownedBy (Db.wait reg ms) a fb = reg.ownedBy a fb := Db.sismember_wait h.lasting ms

end Registry

end Presence

end Xsiam
