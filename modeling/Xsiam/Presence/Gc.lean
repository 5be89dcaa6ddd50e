import Xsiam.Presence.Registry
import Xsiam.Lib.RedisLaws
import Xsiam.Lib.Run

/-!
# The sweep of dead instances, and the machine it runs in

`internal/presence/gc.go`: a run of the collector looks for dead instances and sweeps
them one after the other, and a sweep takes the agents of an instance offline, in the
registry and in the device store, tenant by tenant.

Agents, instances and any number of collectors act on one registry, and their commands
reach it in any order. An event of the machine (`Xsiam.Presence.Event`) is an operation
the registry sends as a whole: an agent that comes or goes, a lease renewed. Time may
pass. The collectors send their commands one by one, so that anything may happen between
two of them: a page of keys is scanned, a lease asked about, the set of a dead instance
read, and then (`Xsiam.Presence.Event.send`) the next command of some sweep that is under
way sent.
-/

namespace Xsiam

namespace Presence

open Go

/-! ### States and events -/

/-- What a sweep sends once it has read the set of its instance. -/
inductive Cmd where
  | bulkRemove (tenantID : GoString) (agentKeys : List GoString)
  | bulkOffline (tenantID : GoString) (agentKeys : List GoString)
  | deleteFBSet (fbID : GoString)

/-- The agents a command names. -/
def Cmd.agents : Cmd → List GoString
  | .bulkRemove _ agentKeys => agentKeys
  | .bulkOffline _ agentKeys => agentKeys
  | .deleteFBSet _ => []

/-- A command removes an agent from the online agents of its tenant. -/
def Cmd.Removes (tenantID agentKey : GoString) : Cmd → Prop
  | .bulkRemove tid agentKeys => tid = tenantID ∧ agentKey ∈ agentKeys
  | _ => False

/-- A command marks an agent offline. -/
def Cmd.Marks (tenantID agentKey : GoString) : Cmd → Prop
  | .bulkOffline tid agentKeys => tid = tenantID ∧ agentKey ∈ agentKeys
  | _ => False

/-- The registry, and where the collectors are. -/
structure State where
  reg : Registry
  /-- The instances scanned whose lease has not been asked about. -/
  scanned : List GoString
  /-- The instances found dead and not yet swept. -/
  dead : List GoString
  /-- The sweeps under way, each with the commands it has still to send. -/
  sweeps : List (GoString × List Cmd)
  /-- The devices marked offline, by tenant and agent key, newest first. -/
  offlined : List (GoString × GoString)

/-- An empty registry at some time. -/
def State.init (start : ℕ) (server : Redis.Server GoString := Redis.inMemory) : State :=
  ⟨.empty start server, [], [], [], []⟩

/-- What a sweep is answered as it sets out. -/
structure SweepAnswers where
  /-- Whether there is a device store, `g.db`. -/
  db : Bool := true
  /-- Whether `SMEMBERS` was answered. -/
  smembers : Bool := true
  /-- `TenantForAgentKey`, where `none` is an error. -/
  tenantForAgentKey : GoString → Option GoString
  /-- The order in which the tenants are gone through. -/
  range : MapRange := .byKey

/-- The events of the machine. -/
inductive Event where
  | touch (tenantID agentKey fbID : GoString)
  | remove (tenantID agentKey fbID : GoString)
  | renewFB (fbID : GoString)
  | wait (ms : ℕ)
  | scan (page : GoString → Bool)
  | askLease (fbID : GoString)
  | sweepFB (fbID : GoString) (ans : SweepAnswers)
  /-- The next command of a sweep, which may fail and then has no effect. -/
  | send (n : ℕ) (ok : Bool)

/-! ### The sweep -/

/-- One agent filed under its tenant. An agent whose tenant is not known is left out. -/
def addToTenant (tenantFor : GoString → Option GoString) (m : GoMap (List GoString))
    (ak : GoString) : GoMap (List GoString) :=
  match tenantFor ak with
  | none => m
  | some tid => if tid = [] then m else m.insert tid ((m[tid]?).getD [] ++ [ak])

/-- The agents of a sweep by tenant. -/
def tenantMap (tenantFor : GoString → Option GoString) (agentKeys : List GoString) :
    GoMap (List GoString) := agentKeys.foldl (addToTenant tenantFor) ∅

/-- The commands for the agents of one tenant. -/
def sweepTenant (tk : GoString × List GoString) : List Cmd :=
  [.bulkRemove tk.1 tk.2, .bulkOffline tk.1 tk.2]

/-- The commands for the agents of all tenants. -/
def sweepTenants (ans : SweepAnswers) (agentKeys : List GoString) : List Cmd :=
  if ans.db then
    (ans.range.entries (tenantMap ans.tenantForAgentKey agentKeys)).flatMap sweepTenant
  else []

/-- `sweepFB`, as the commands it sends after it has read the set of the instance. -/
def sweepFB (ans : SweepAnswers) (reg : Registry) (fbID : GoString) : List Cmd :=
  if ans.smembers then
    match reg.agentsForFB fbID with
    | none => []
    | some agentKeys =>
      if agentKeys = [] then [.deleteFBSet fbID]
      else sweepTenants ans agentKeys ++ [.deleteFBSet fbID]
  else []

/-! ### The machine -/

/-- A command that succeeds. -/
def State.exec (s : State) : Cmd → State
  | .bulkRemove tenantID agentKeys => { s with reg := s.reg.bulkRemove tenantID agentKeys }
  | .bulkOffline tenantID agentKeys =>
    { s with offlined := agentKeys.map (tenantID, ·) ++ s.offlined }
  | .deleteFBSet fbID => { s with reg := s.reg.deleteFBSet fbID }

/-- A command leaves the sweeps as they are. -/
theorem State.sweeps_exec (s : State) (cmd : Cmd) : (s.exec cmd).sweeps = s.sweeps := by
  cases cmd <;> rfl

/-- One event. An instance is swept only where it was found dead before. -/
def step (s : State) : Event → Option State
  | .touch tenantID agentKey fbID => some { s with reg := s.reg.touch tenantID agentKey fbID }
  | .remove tenantID agentKey fbID => some { s with reg := s.reg.remove tenantID agentKey fbID }
  | .renewFB fbID => some { s with reg := s.reg.renewFB fbID }
  | .wait ms => some { s with reg := s.reg.wait ms }
  | .scan page => some { s with scanned := s.scanned ++ s.reg.scanFBSets page }
  | .askLease fbID =>
    if fbID ∈ s.scanned then
      some { s with
        scanned := s.scanned.erase fbID
        dead := if s.reg.leaseLive fbID then s.dead else s.dead ++ [fbID] }
    else none
  | .sweepFB fbID ans =>
    if fbID ∈ s.dead then
      some { s with
        dead := s.dead.erase fbID
        sweeps := s.sweeps ++ [(fbID, sweepFB ans s.reg fbID)] }
    else none
  | .send n ok =>
    match s.sweeps[n]? with
    | some (fbID, cmd :: cmds) =>
      let s := { s with sweeps := s.sweeps.set n (fbID, cmds) }
      some (if ok then s.exec cmd else s)
    | _ => none

/-- What sending a command is: the next one of some sweep, which has its effect or not. -/
theorem step_send {s s' : State} {n : ℕ} {ok : Bool} (h : step s (.send n ok) = some s') :
    ∃ fbID cmd cmds, s.sweeps[n]? = some (fbID, cmd :: cmds) ∧
      s' = if ok then State.exec { s with sweeps := s.sweeps.set n (fbID, cmds) } cmd
        else { s with sweeps := s.sweeps.set n (fbID, cmds) } := by
  rw [step] at h
  split at h
  · next fbID cmd cmds hn => exact ⟨fbID, cmd, cmds, hn, (Option.some.inj h).symm⟩
  · exact absurd h (by simp)

/-- What setting out is: the set of a dead instance is read. -/
theorem step_sweepFB {s s' : State} {fbID : GoString} {ans : SweepAnswers}
    (h : step s (.sweepFB fbID ans) = some s') : fbID ∈ s.dead ∧ s' = { s with
      dead := s.dead.erase fbID
      sweeps := s.sweeps ++ [(fbID, sweepFB ans s.reg fbID)] } := by
  rw [step] at h
  split_ifs at h with hdead
  exact ⟨hdead, (Option.some.inj h).symm⟩

theorem step_askLease {s s' : State} {fbID : GoString} (h : step s (.askLease fbID) = some s') :
    s' = { s with
      scanned := s.scanned.erase fbID
      dead := if s.reg.leaseLive fbID then s.dead else s.dead ++ [fbID] } := by
  rw [step] at h
  split at h
  · exact (Option.some.inj h).symm
  · exact absurd h (by simp)

/-- The instance an event is part of the sweep of. -/
def State.sweeping (s : State) : Event → Option GoString
  | .sweepFB fbID _ => some fbID
  | .send n _ => s.sweeps[n]?.map (·.1)
  | _ => none

/-! ### What an operation does to the sets of the instances -/

/-- A command that may fail adds nobody where it would not when it succeeds. -/
theorem shrinks_getD {reg : Registry} {r : Option Registry}
    (h : ∀ reg', r = some reg' → Redis.Db.Shrinks reg reg') :
    Redis.Db.Shrinks reg (r.getD reg) := by
  cases r with
  | none => exact .refl reg
  | some reg' => exact h reg' rfl

namespace Registry

variable (reg : Registry)

/-- **`Touch` makes the agent a member of its instance**, and of no other one. -/
theorem ownedBy_touch {tenantID agentKey fbID ak fb : GoString}
    (h : (reg.touch tenantID agentKey fbID).ownedBy ak fb = true) :
    reg.ownedBy ak fb = true ∨ (ak = agentKey ∧ fb = fbID) := by
  have hzadd : Redis.Db.Shrinks reg ((reg.zadd (keyOnline tenantID) agentKey reg.now).getD reg) :=
    shrinks_getD fun _ hr => Redis.Db.shrinks_zadd hr
  rw [touch, ownedBy] at h
  cases hsadd : ((reg.zadd (keyOnline tenantID) agentKey reg.now).getD reg).sadd
      (keyFBSet fbID) agentKey with
  | none =>
    rw [hsadd] at h
    exact Or.inl (hzadd _ _ h)
  | some reg' =>
    rw [hsadd] at h
    rcases (Redis.Db.sismember_sadd hsadd).mp h with hold | ⟨hkey, hak⟩
    · exact Or.inl (hzadd _ _ hold)
    · exact Or.inr ⟨hak, keyFBSet_inj.mp hkey⟩

theorem shrinks_remove (tenantID agentKey fbID : GoString) :
    Redis.Db.Shrinks reg (reg.remove tenantID agentKey fbID) :=
  (shrinks_getD fun _ hr => Redis.Db.shrinks_zrem hr).trans
    (shrinks_getD fun _ hr => Redis.Db.shrinks_srem hr)

theorem shrinks_renewFB (fbID : GoString) : Redis.Db.Shrinks reg (reg.renewFB fbID) :=
  Redis.Db.shrinks_setEx (by decide)

theorem shrinks_bulkRemove (tenantID : GoString) (agentKeys : List GoString) :
    Redis.Db.Shrinks reg (reg.bulkRemove tenantID agentKeys) := by
  rw [bulkRemove]
  split_ifs
  · exact .refl reg
  · exact shrinks_getD fun _ hr => Redis.Db.shrinks_zrem hr

/-- `BulkRemove` leaves the scores of the agents it does not name. -/
theorem score_bulkRemove {tenantID tid ak : GoString} {agentKeys : List GoString}
    (h : ak ∉ agentKeys) : (reg.bulkRemove tid agentKeys).score tenantID ak =
      reg.score tenantID ak := by
  rw [bulkRemove]
  split_ifs
  · rfl
  · cases hr : reg.zrem (keyOnline tid) agentKeys with
    | none => rfl
    | some reg' => exact Redis.Db.zscore_zrem hr h

/-- `DeleteFBSet` leaves all scores. -/
theorem score_deleteFBSet (tenantID ak fbID : GoString) :
    (reg.deleteFBSet fbID).score tenantID ak = reg.score tenantID ak :=
  Redis.Db.zscore_del_of_ne (keyOnline_ne_keyFBSet tenantID fbID)

end Registry

theorem State.shrinks_exec (s : State) (cmd : Cmd) : Redis.Db.Shrinks s.reg (s.exec cmd).reg := by
  cases cmd with
  | bulkRemove tenantID agentKeys => exact s.reg.shrinks_bulkRemove tenantID agentKeys
  | bulkOffline _ _ => exact .refl s.reg
  | deleteFBSet _ => exact Redis.Db.shrinks_del

/-! ### The agents a sweep names -/

/-- The agents filed under tenants are all of a list. -/
def FiledFrom (agentKeys : List GoString) (m : GoMap (List GoString)) : Prop :=
  ∀ (tid : GoString) (keys : List GoString), m[tid]? = some keys → ∀ ak ∈ keys, ak ∈ agentKeys

theorem filedFrom_addToTenant {tenantFor : GoString → Option GoString}
    {agentKeys : List GoString} {m : GoMap (List GoString)} {ak : GoString}
    (hm : FiledFrom agentKeys m) (hak : ak ∈ agentKeys) :
    FiledFrom agentKeys (addToTenant tenantFor m ak) := by
  rw [addToTenant]
  split
  · exact hm
  · next tid _ =>
    split_ifs
    · exact hm
    · intro tid' keys hkeys ak' hak'
      rw [GoMap.getElem?_insert] at hkeys
      split_ifs at hkeys
      · rw [← Option.some.inj hkeys] at hak'
        rcases List.mem_append.mp hak' with hold | hnew
        · cases hm' : m[tid]? with
          | none => simp [hm'] at hold
          | some old =>
            rw [hm'] at hold
            exact hm tid old hm' ak' hold
        · exact List.mem_singleton.mp hnew ▸ hak
      · exact hm tid' keys hkeys ak' hak'

/-- The tenants of a sweep share out agents of the instance, and no others. -/
theorem filedFrom_tenantMap (tenantFor : GoString → Option GoString) (agentKeys : List GoString) :
    FiledFrom agentKeys (tenantMap tenantFor agentKeys) := by
  have hfold : ∀ (aks : List GoString) (m : GoMap (List GoString)), FiledFrom agentKeys m →
      (∀ ak ∈ aks, ak ∈ agentKeys) → FiledFrom agentKeys (aks.foldl (addToTenant tenantFor) m) := by
    intro aks
    induction aks with
    | nil => exact fun m hm _ => hm
    | cons ak aks ih =>
      exact fun m hm haks => ih _ (filedFrom_addToTenant hm (haks ak List.mem_cons_self))
        fun ak' hak' => haks ak' (List.mem_cons_of_mem _ hak')
  refine hfold agentKeys ∅ (fun tid keys hempty => ?_) fun _ hak => hak
  exact absurd (Std.ExtTreeMap.getElem?_empty.symm.trans hempty) (by simp)

theorem mem_agents_sweepTenants {ans : SweepAnswers} {agentKeys : List GoString} {cmd : Cmd}
    {ak : GoString} (hcmd : cmd ∈ sweepTenants ans agentKeys) (hak : ak ∈ cmd.agents) :
    ak ∈ agentKeys := by
  rw [sweepTenants] at hcmd
  split_ifs at hcmd
  · obtain ⟨⟨tid, keys⟩, htk, hmem⟩ := List.mem_flatMap.mp hcmd
    have hkeys : ak ∈ keys := by
      rcases List.mem_pair.mp hmem with rfl | rfl
      · exact hak
      · exact hak
    exact filedFrom_tenantMap _ _ tid keys ((ans.range.mem_entries _ _ _).mp htk) ak hkeys
  · exact absurd hcmd List.not_mem_nil

/-- **A sweep names members of its instance only**, as the set was when it was read. -/
theorem mem_agents_sweepFB {ans : SweepAnswers} {reg : Registry} {fbID ak : GoString} {cmd : Cmd}
    (hcmd : cmd ∈ sweepFB ans reg fbID) (hak : ak ∈ cmd.agents) :
    reg.ownedBy ak fbID = true := by
  rw [sweepFB] at hcmd
  split_ifs at hcmd
  · split at hcmd
    · exact absurd hcmd List.not_mem_nil
    · next agentKeys hkeys =>
      refine (Redis.Db.mem_smembers hkeys).mp ?_
      split_ifs at hcmd
      · obtain rfl := List.mem_singleton.mp hcmd
        exact absurd hak List.not_mem_nil
      · rcases List.mem_append.mp hcmd with hcmd | hcmd
        · exact mem_agents_sweepTenants hcmd hak
        · obtain rfl := List.mem_singleton.mp hcmd
          exact absurd hak List.not_mem_nil
  · exact absurd hcmd List.not_mem_nil

/-! ### The agents an instance has -/

/-- An instance has an agent: it is a member of its set, or named by a command a sweep of
it has still to send. -/
def State.Has (s : State) (agentKey fbID : GoString) : Prop :=
  s.reg.ownedBy agentKey fbID = true ∨
    ∃ cmds, (fbID, cmds) ∈ s.sweeps ∧ ∃ cmd ∈ cmds, agentKey ∈ cmd.agents

theorem State.not_has_init (start : ℕ) (server : Redis.Server GoString) (ak fb : GoString) :
    ¬(State.init start server).Has ak fb := by
  rintro (howned | ⟨cmds, hmem, -⟩)
  · rw [Registry.ownedBy, Redis.Db.sismember, State.init, Redis.Db.find?_empty] at howned
    cases howned
  · exact absurd hmem List.not_mem_nil

/-- No instance gets an agent. -/
def GivesUp (s s' : State) : Prop := ∀ ak fb, s'.Has ak fb → s.Has ak fb

theorem GivesUp.ofShrinks {s s' : State} (hreg : Redis.Db.Shrinks s.reg s'.reg)
    (hsweeps : s'.sweeps = s.sweeps) : GivesUp s s' := by
  rintro ak fb (howned | ⟨cmds, hmem, hnamed⟩)
  · exact Or.inl (hreg _ _ howned)
  · exact Or.inr ⟨cmds, hsweeps ▸ hmem, hnamed⟩

/-- **Only `Touch` gives an instance an agent.** A sweep that sets out names agents its
instance has, and one under way names fewer and fewer. -/
theorem givesUp_step {s s' : State} {ev : Event} (hstep : step s ev = some s')
    (hev : ∀ tid ak fb, ev ≠ .touch tid ak fb) : GivesUp s s' := by
  cases ev with
  | touch tid ak fb => exact absurd rfl (hev tid ak fb)
  | remove tid ak fb =>
    obtain rfl := Option.some.inj hstep
    exact .ofShrinks (s.reg.shrinks_remove tid ak fb) rfl
  | renewFB fbID =>
    obtain rfl := Option.some.inj hstep
    exact .ofShrinks (s.reg.shrinks_renewFB fbID) rfl
  | wait ms =>
    obtain rfl := Option.some.inj hstep
    exact .ofShrinks Redis.Db.shrinks_wait rfl
  | scan page =>
    obtain rfl := Option.some.inj hstep
    exact .ofShrinks (.refl s.reg) rfl
  | askLease fbID =>
    obtain rfl := step_askLease hstep
    exact .ofShrinks (.refl s.reg) rfl
  | sweepFB fbID ans =>
    obtain ⟨-, rfl⟩ := step_sweepFB hstep
    -- a new sweep only names members of the set that it has just read
    rintro ak fb (howned | ⟨cmds, hmem, cmd, hcmd, hak⟩)
    · exact Or.inl howned
    · rcases List.mem_append.mp hmem with hmem | hmem
      · exact Or.inr ⟨cmds, hmem, cmd, hcmd, hak⟩
      · obtain ⟨rfl, rfl⟩ := Prod.mk.inj (List.mem_singleton.mp hmem)
        exact Or.inl (mem_agents_sweepFB hcmd hak)
  | send n ok =>
    obtain ⟨fbID, cmd, cmds, hn, rfl⟩ := step_send hstep
    -- first the command leaves its sweep, then it is executed or fails
    have hrest : GivesUp s { s with sweeps := s.sweeps.set n (fbID, cmds) } := by
      rintro ak fb (howned | ⟨cmds', hmem, cmd', hcmd', hak⟩)
      · exact Or.inl howned
      · refine Or.inr ?_
        rcases List.mem_or_eq_of_mem_set hmem with hmem | heq
        · exact ⟨cmds', hmem, cmd', hcmd', hak⟩
        · obtain ⟨rfl, rfl⟩ := Prod.mk.inj heq
          exact ⟨cmd :: cmds', List.mem_of_getElem? hn, cmd', List.mem_cons_of_mem _ hcmd', hak⟩
    have hexec : ∀ s : State, GivesUp s (if ok then s.exec cmd else s) := by
      intro s
      split_ifs
      · exact .ofShrinks (s.shrinks_exec cmd) (s.sweeps_exec cmd)
      · exact fun _ _ h => h
    exact fun ak fb h => hrest ak fb (hexec _ ak fb h)

/-! ### What a sweep does to an agent -/

/-- An agent is left alone: it keeps its scores, and is not marked offline. -/
structure LeavesAlone (agentKey : GoString) (s s' : State) : Prop where
  score : ∀ tenantID, s'.reg.score tenantID agentKey = s.reg.score tenantID agentKey
  offlined : ∃ marks, s'.offlined = marks ++ s.offlined ∧
    ∀ tenantID, (tenantID, agentKey) ∉ marks

/-- A state with the same scores and the same devices. -/
theorem LeavesAlone.ofScore {ak : GoString} {s s' : State}
    (hscore : ∀ tenantID, s'.reg.score tenantID ak = s.reg.score tenantID ak)
    (hoff : s'.offlined = s.offlined) : LeavesAlone ak s s' :=
  ⟨hscore, [], hoff, fun _ => List.not_mem_nil⟩

theorem leavesAlone_exec {s : State} {cmd : Cmd} {ak : GoString} (h : ak ∉ cmd.agents) :
    LeavesAlone ak s (s.exec cmd) := by
  cases cmd with
  | bulkRemove tenantID agentKeys => exact .ofScore (fun _ => s.reg.score_bulkRemove h) rfl
  | bulkOffline tenantID agentKeys =>
    refine ⟨fun _ => rfl, agentKeys.map (tenantID, ·), rfl, fun tid hmem => h ?_⟩
    obtain ⟨ak', hak', heq⟩ := List.mem_map.mp hmem
    exact (Prod.mk.inj heq).2 ▸ hak'
  | deleteFBSet fbID => exact .ofScore (fun tid => s.reg.score_deleteFBSet tid ak fbID) rfl

/-- **A sweep leaves alone the agents its instance has not.** -/
theorem leavesAlone_step {s s' : State} {ev : Event} {ak fbID : GoString}
    (hsweep : s.sweeping ev = some fbID) (hstep : step s ev = some s') (h : ¬s.Has ak fbID) :
    LeavesAlone ak s s' := by
  cases ev with
  | sweepFB fb ans =>
    obtain ⟨-, rfl⟩ := step_sweepFB hstep
    exact .ofScore (fun _ => rfl) rfl
  | send n ok =>
    obtain ⟨fb, cmd, cmds, hn, rfl⟩ := step_send hstep
    have hfb : fb = fbID := by
      rw [State.sweeping, hn] at hsweep
      exact Option.some.inj hsweep
    subst hfb
    have hnamed : ak ∉ cmd.agents := fun hak =>
      h (Or.inr ⟨cmd :: cmds, List.mem_of_getElem? hn, cmd, List.mem_cons_self, hak⟩)
    split_ifs
    · obtain ⟨hscore, hoff⟩ :=
        @leavesAlone_exec { s with sweeps := s.sweeps.set n (fb, cmds) } cmd ak hnamed
      exact ⟨hscore, hoff⟩
    · exact .ofScore (fun _ => rfl) rfl
  | _ => exact absurd hsweep (by simp [State.sweeping])

end Presence

end Xsiam
