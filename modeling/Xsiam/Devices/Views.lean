import Xsiam.Devices.Service
import Xsiam.Lib.Run

/-!
# Two views of who is online

Agents report events and collectors sweep dead instances, both against the registry and the
device documents. A sweep files the agents of an instance under the tenants of their
devices, and its commands go to the registry and to the documents in turn.

After a connect an agent is online in both, after a disconnect in neither. After a
heartbeat it is online in the registry, and its device is what it was
(`Xsiam.Devices.views_of_event`): a heartbeat is recorded with `last_heartbeat` and no status. So a
device that a disconnect or a sweep took offline stays offline until its agent connects
again, whatever heartbeats come in between (`Xsiam.Devices.OfflineSince`).
-/

namespace Xsiam

namespace Devices

open Go Presence Run

/-! ### States and events -/

/-- The registry with the collectors, and the documents. -/
structure State where
  gc : Presence.State
  devices : Repo

/-- An empty registry at some time, with the devices there are. -/
def State.init (start : ℕ) (devices : Repo)
    (server : Redis.Server GoString := Redis.inMemory) : State := ⟨.init start server, devices⟩

/-- What the handler of events works on. -/
def State.stores (s : State) : Stores := ⟨s.gc.reg, s.devices⟩

/-- How the calls of a sweep go as it sets out. -/
structure SweepCalls where
  db : Bool := true
  smembers : Bool := true
  /-- Whether `TenantForAgentKey` is answered. -/
  tenantForAgentKey : GoString → Bool := fun _ => true
  range : MapRange := .byKey

/-- What a sweep is answered. -/
def SweepCalls.answers (calls : SweepCalls) (devices : Repo) : SweepAnswers where
  db := calls.db
  smembers := calls.smembers
  tenantForAgentKey agentKey :=
    if calls.tenantForAgentKey agentKey then some (devices.tenantForAgentKey agentKey) else none
  range := calls.range

/-- What goes on besides the events of agents: time, and the collectors. -/
inductive Background where
  | wait (ms : ℕ)
  | scan (page : GoString → Bool)
  | askLease (fbID : GoString)
  | sweepFB (fbID : GoString) (calls : SweepCalls)
  | send (n : ℕ) (ok : Bool)

/-- The events of the machine. -/
inductive Event where
  | agent (ev : AgentEvent) (ans : Answers)
  | background (bg : Background)

/-! ### The machine -/

/-- What goes on, for the registry and the collectors. -/
def Background.event (devices : Repo) : Background → Presence.Event
  | .wait ms => .wait ms
  | .scan page => .scan page
  | .askLease fbID => .askLease fbID
  | .sweepFB fbID calls => .sweepFB fbID (calls.answers devices)
  | .send n ok => .send n ok

/-- The documents after a command. -/
def mark (now : Time) (devices : Repo) : Cmd → Repo
  | .bulkOffline tenantID agentKeys => devices.bulkOfflineByAgentKeys tenantID agentKeys now
  | _ => devices

/-- The documents after what goes on: a command that is sent goes to them too. -/
def State.marked (s : State) : Background → Repo
  | .send n true =>
    match s.gc.sweeps[n]? with
    | some (_, cmd :: _) => mark s.stores.clock s.devices cmd
    | _ => s.devices
  | _ => s.devices

/-- One event. -/
def step (s : State) : Event → Option State
  | .agent ev ans =>
    let st := (handleAgentEvent ans s.stores ev).1
    some ⟨{ s.gc with reg := st.reg }, st.devices⟩
  | .background bg => (Presence.step s.gc (bg.event s.devices)).map fun gc => ⟨gc, s.marked bg⟩

/-- What an event of an agent is. -/
theorem step_agent {s s' : State} {ev : AgentEvent} {ans : Answers}
    (h : step s (.agent ev ans) = some s') :
    s'.gc.reg = (handleAgentEvent ans s.stores ev).1.reg ∧
      s'.devices = (handleAgentEvent ans s.stores ev).1.devices := by
  obtain rfl := Option.some.inj h
  exact ⟨rfl, rfl⟩

/-- What else an event is. -/
theorem step_background {s s' : State} {bg : Background} (h : step s (.background bg) = some s') :
    Presence.step s.gc (bg.event s.devices) = some s'.gc ∧ s'.devices = s.marked bg := by
  obtain ⟨gc, hgc, rfl⟩ := Option.map_eq_some_iff.mp h
  exact ⟨hgc, rfl⟩

/-- A collector takes no device online. -/
theorem online_of_marked {s : State} {bg : Background} {a : GoString} (h : (s.marked bg).Online a) :
    s.devices.Online a := by
  rw [State.marked.eq_def] at h
  split at h
  · split at h
    · next cmd _ _ =>
      cases cmd with
      | bulkOffline tenantID agentKeys => exact Repo.online_of_bulkOffline h
      | bulkRemove _ _ => exact h
      | deleteFBSet _ => exact h
    · exact h
  · exact h

/-- **The keys of the registry are typed in every state reached.** -/
theorem typed_of_reach {ok : History State Event → State → Event → Prop} {start : ℕ}
    {devices : Repo} {server : Redis.Server GoString} {hist : History State Event} {s : State}
    (h : Reach step ok (.init start devices server) hist s) : Typed s.gc.reg := by
  refine @Reach.invariant _ _ step ok (.init start devices server) (fun _ s => Typed s.gc.reg)
    (Typed.empty start server) (fun {hist s s' ev} hinv _ hstep => ?_) hist s h
  cases ev with
  | agent ev ans =>
    rw [(step_agent hstep).1]
    exact typed_handleAgentEvent hinv
  | background bg => exact typed_step hinv (step_background hstep).1

/-! ### Agreement -/

/-- The two views of an agent agree. -/
def ViewsAgree (s : State) (tenantID agentID : GoString) : Prop :=
  s.devices.Online agentID ↔ s.gc.reg.isOnline tenantID agentID = true

/-- An agent connects. -/
def Event.Connects (agentID : GoString) : Event → Prop
  | .agent ev _ => ev.event = .connect ∧ ev.agentID = agentID
  | _ => False

/-- The device of an agent is not online, or was not at some time, since when the agent has
not connected. -/
def OfflineSince (agentID : GoString) (hist : History State Event) (s : State) : Prop :=
  ¬s.devices.Online agentID ∨
    ∃ newer s₀ ev₀ older, hist = newer ++ (s₀, ev₀) :: older ∧ ¬s₀.devices.Online agentID ∧
      ∀ p ∈ newer ++ [(s₀, ev₀)], ¬p.2.Connects agentID

/-- Only a connect takes a device online. -/
theorem online_of_step {s s' : State} {ev : Event} {a : GoString} (hstep : step s ev = some s')
    (hev : ¬ev.Connects a) (h : s'.devices.Online a) : s.devices.Online a := by
  cases ev with
  | agent ev ans =>
    rw [(step_agent hstep).2] at h
    exact online_of_handleAgentEvent h fun hkind hid => hev ⟨hkind, hid⟩
  | background bg =>
    rw [(step_background hstep).2] at h
    exact online_of_marked h

/-- **A device that is offline stays offline until its agent connects**, in every run. -/
theorem not_online_of_offlineSince {ok : History State Event → State → Event → Prop} {init : State}
    {hist : History State Event} {s : State} {a : GoString} (h : Reach step ok init hist s)
    (hoff : OfflineSince a hist s) : ¬s.devices.Online a := by
  induction h with
  | start =>
    rcases hoff with hoff | ⟨newer, s₀, ev₀, older, heq, -⟩
    · exact hoff
    · exact absurd heq (by simp)
  | @next hist s s' ev _ _ hstep ih =>
    rcases hoff with hoff | ⟨newer, s₀, ev₀, older, heq, hs₀, hnot⟩
    · exact hoff
    · intro honline
      rcases List.append_eq_cons_iff.mp heq.symm with ⟨rfl, hcons⟩ | ⟨newer', rfl, hrest⟩
      · -- offline in the state that the last event met
        obtain ⟨heq₀, -⟩ := List.cons.inj hcons
        obtain ⟨rfl, rfl⟩ := Prod.mk.inj heq₀
        exact hs₀ (online_of_step hstep (hnot _ List.mem_cons_self) honline)
      · have hlast : ¬ev.Connects a := hnot _ List.mem_cons_self
        have hbefore : OfflineSince a hist s := Or.inr ⟨newer', s₀, ev₀, older, hrest, hs₀,
          fun p hp => hnot p (List.mem_cons_of_mem _ hp)⟩
        exact ih hbefore (online_of_step hstep hlast honline)

/-- **What the two views of an agent are after an event of it.** -/
theorem views_of_event {ok : History State Event → State → Event → Prop} {start : ℕ}
    {devices : Repo} {server : Redis.Server GoString} {hist : History State Event} {s s' : State}
    {ev : AgentEvent} (h : Reach step ok (.init start devices server) hist s)
    (hok : (handleAgentEvent {} s.stores ev).2 = none)
    (hstep : step s (.agent ev {}) = some s') :
    (ev.event = .connect → ViewsAgree s' ev.tenant ev.agentID ∧ s'.devices.Online ev.agentID) ∧
    (ev.event = .disconnect →
      ViewsAgree s' ev.tenant ev.agentID ∧ ¬s'.devices.Online ev.agentID) ∧
    (ev.event = .heartbeat → s'.gc.reg.isOnline ev.tenant ev.agentID = true ∧
      (s'.devices.Online ev.agentID ↔ s.devices.Online ev.agentID) ∧
      (OfflineSince ev.agentID hist s → ¬ViewsAgree s' ev.tenant ev.agentID)) := by
  have htyped : Typed s.stores.reg := typed_of_reach h
  obtain ⟨hreg, hdevices⟩ := step_agent hstep
  rw [ViewsAgree, hreg, hdevices]
  refine ⟨fun hkind => ?_, fun hkind => ?_, fun hkind => ?_⟩
  · obtain ⟨honline, hview⟩ :=
      connect_online htyped hkind (agentID_ne_nil (by simp [hkind]) hok)
    exact ⟨iff_of_true honline hview, honline⟩
  · obtain ⟨honline, hview⟩ :=
      disconnect_offline htyped hkind (agentID_ne_nil (by simp [hkind]) hok)
    exact ⟨iff_of_false honline (by simp [hview]), honline⟩
  · obtain ⟨honline, hview⟩ :=
      heartbeat_online htyped hkind (agentID_ne_nil (by simp [hkind]) hok)
    refine ⟨hview, honline, fun hoff hagree => ?_⟩
    exact not_online_of_offlineSince h hoff (honline.mp (hagree.mpr hview))

/-- All calls of an event succeed. -/
def Succeeds (_ : History State Event) (_ : State) : Event → Prop
  | .agent _ ans => ans = {}
  | .background (.sweepFB _ calls) =>
    calls.db = true ∧ calls.smembers = true ∧ ∀ agentKey, calls.tenantForAgentKey agentKey = true
  | .background (.send _ ok) => ok = true
  | .background _ => True

/-- An event of the agent `a`, through the instance `f1`. -/
def ofAgentA (kind : AgentEventType) : AgentEvent where
  agentID := str "a"
  event := kind
  fbInstanceID := str "f1"

theorem views_of_event_heartbeat :
    ∃ hist s s', replay step [] (.init 0 .empty)
        [.agent (ofAgentA .connect) {}, .agent (ofAgentA .disconnect) {}] = some (hist, s) ∧
      step s (.agent (ofAgentA .heartbeat) {}) = some s' ∧
      s'.gc.reg.isOnline (str "default") (str "a") = true ∧
      ¬ViewsAgree s' (str "default") (str "a") := by
  obtain ⟨hist, s, hrun, s', hok, hstep, hstatus⟩ : ∃ hist s, replay step [] (.init 0 .empty)
      [.agent (ofAgentA .connect) {}, .agent (ofAgentA .disconnect) {}] = some (hist, s) ∧
      ∃ s', (handleAgentEvent {} s.stores (ofAgentA .heartbeat)).2 = none ∧
        step s (.agent (ofAgentA .heartbeat) {}) = some s' ∧
        s.devices.status (str "a") = some .offline :=
    ⟨_, _, rfl, _, rfl, rfl, rfl⟩
  have hoff : ¬s.devices.Online (str "a") := fun honline =>
    absurd (hstatus.symm.trans honline) (by simp)
  obtain ⟨hview, -, hagree⟩ := (views_of_event (Reach.start.replay hrun) hok hstep).2.2 rfl
  exact ⟨hist, s, s', hrun, hstep, hview, hagree (Or.inl hoff)⟩

/-- A heartbeat after a disconnect, all calls succeeding: the registry has the agent, and
the document has it offline. -/
theorem not_viewsAgree :
    ¬∀ (start : ℕ) (devices : Repo) (hist : History State Event) (s s' : State) (ev : AgentEvent),
      Reach step Succeeds (.init start devices) hist s →
        ev.event = .connect ∨ ev.event = .disconnect ∨ ev.event = .heartbeat →
          (handleAgentEvent {} s.stores ev).2 = none → step s (.agent ev {}) = some s' →
            ViewsAgree s' ev.tenant ev.agentID := by
  intro h
  have h₀ : Reach step Succeeds (.init 0 .empty) [] (.init 0 .empty) := .start
  have h₁ := h₀.next (show Succeeds _ _ (.agent (ofAgentA .connect) {}) from rfl) rfl
  have h₂ := h₁.next (show Succeeds _ _ (.agent (ofAgentA .disconnect) {}) from rfl) rfl
  have hagree := h _ _ _ _ _ (ofAgentA .heartbeat) h₂ (Or.inr (Or.inr rfl)) rfl rfl
  have honline := hagree.mpr rfl
  exact absurd (show some AgentStatus.offline = some .online from honline) (by simp)

end Devices

end Xsiam
