import Xsiam.Devices.Service
import Xsiam.Lib.Run

/-!
# Disconnects of old connections

An agent that loses its connection opens another one, perhaps through another instance, and
the old instance may report the disconnect later than the new one reports the connect. An
event does not say which connection it belongs to; here each delivery is marked with it
(`Xsiam.Devices.Delivery`), for the statements only.

What decides is the order of arrival and nothing else. From the arrival of a connect that
is answered an agent is online in the documents, and in the registry for as long as its
last touch counts, until a disconnect of it arrives
(`Xsiam.Devices.online_until_disconnect`). That disconnect takes it offline in both, also
when it belongs to a connection given up long ago (`Xsiam.Devices.not_onlineWhileOpen`).
-/

namespace Xsiam

namespace Devices

open Go Presence Run

/-! ### Deliveries -/

/-- An event as it is delivered, with the connection it is about. -/
structure Delivery where
  conn : ℕ
  ev : AgentEvent
  ans : Answers := {}

/-- What reaches the service. -/
inductive Arrival where
  | deliver (d : Delivery)
  | wait (ms : ℕ)

/-- One arrival. -/
def arrive (st : Stores) : Arrival → Option Stores
  | .deliver d => some (handleAgentEvent d.ans st d.ev).1
  | .wait ms => some { st with reg := Redis.Db.wait st.reg ms }

/-- An empty registry at some time, with the devices there are. -/
def Stores.init (start : ℕ) (devices : Repo)
    (server : Redis.Server GoString := Redis.inMemory) : Stores := ⟨.empty start server, devices⟩

/-- The connect of an agent. -/
def Arrival.connection (tenantID agentID : GoString) : Arrival → Option Delivery
  | .deliver d =>
    if d.ev.event = .connect ∧ d.ev.tenant = tenantID ∧ d.ev.agentID = agentID then some d else none
  | .wait _ => none

/-- A disconnect of an agent, whatever its tenant: documents are found by the agent alone. -/
def Arrival.Disconnects (agentID : GoString) : Arrival → Prop
  | .deliver d => d.ev.event = .disconnect ∧ d.ev.agentID = agentID
  | .wait _ => False

/-- What an arrival makes of the score of an agent, where it changes it. -/
def Arrival.newScore (tenantID agentID : GoString) (now : ℕ) : Arrival → Option (Option ℕ)
  | .deliver d =>
    if tenantID = d.ev.tenant ∧ agentID = d.ev.agentID then Devices.newScore d.ans now d.ev else none
  | .wait _ => none

/-- The newest connection of an agent. -/
def newest (hist : History Stores Arrival) (tenantID agentID : GoString) : Option Delivery :=
  hist.findSome? (·.2.connection tenantID agentID)

/-- What arrived since the newest connection of an agent. -/
def sinceNewest (hist : History Stores Arrival) (tenantID agentID : GoString) :
    History Stores Arrival := hist.takeWhile fun p => (p.2.connection tenantID agentID).isNone

/-- When an agent was touched last, unless it was removed since. -/
def lastSeen (hist : History Stores Arrival) (tenantID agentID : GoString) : Option ℕ :=
  (hist.findSome? fun p => p.2.newScore tenantID agentID p.1.reg.now).getD none

/-! ### The registry -/

theorem typed_arrive {st st' : Stores} {arr : Arrival} (h : Typed st.reg)
    (hstep : arrive st arr = some st') : Typed st'.reg := by
  cases arr with
  | deliver d =>
    obtain rfl := Option.some.inj hstep
    exact typed_handleAgentEvent h
  | wait ms =>
    obtain rfl := Option.some.inj hstep
    exact h.wait ms

theorem score_arrive {st st' : Stores} {arr : Arrival} (h : Typed st.reg)
    (hstep : arrive st arr = some st') (tid a : GoString) :
    st'.reg.score tid a = (arr.newScore tid a st.reg.now).getD (st.reg.score tid a) := by
  cases arr with
  | deliver d =>
    obtain rfl := Option.some.inj hstep
    rw [score_handleAgentEvent h, Arrival.newScore]
    split_ifs
    · rfl
    · rfl
  | wait ms =>
    obtain rfl := Option.some.inj hstep
    exact Registry.score_wait h ms tid a

/-- **The score of an agent is when it was touched last**, in every state reached. -/
theorem score_eq_lastSeen {ok : History Stores Arrival → Stores → Arrival → Prop} {start : ℕ}
    {devices : Repo} {server : Redis.Server GoString} {hist : History Stores Arrival} {s : Stores}
    (h : Reach arrive ok (.init start devices server) hist s) :
    Typed s.reg ∧ ∀ tid a, s.reg.score tid a = lastSeen hist tid a := by
  refine @Reach.invariant _ _ arrive ok (.init start devices server)
    (fun hist s => Typed s.reg ∧ ∀ tid a, s.reg.score tid a = lastSeen hist tid a)
    ⟨Typed.empty start server, fun tid a => ?_⟩ (fun {hist s s' arr} hinv _ hstep => ?_) hist s h
  · have hnone : Redis.Db.type (Stores.init start devices server).reg (keyOnline tid) = none := by
      rw [Stores.init, Redis.Db.type, Redis.Db.find?_empty]
      rfl
    exact Redis.Db.zscore_eq_none (by simp [hnone])
  · obtain ⟨htyped, hscore⟩ := hinv
    refine ⟨typed_arrive htyped hstep, fun tid a => ?_⟩
    rw [score_arrive htyped hstep, hscore, lastSeen, lastSeen, List.findSome?_cons]
    cases arr.newScore tid a s.reg.now with
    | none => rfl
    | some score => rfl

/-! ### The newest connection -/

section Newest

variable {hist : History Stores Arrival} {s s' : Stores} {arr : Arrival} {tid ak : GoString}

theorem newest_cons_none (h : arr.connection tid ak = none) :
    newest ((s, arr) :: hist) tid ak = newest hist tid ak ∧
      sinceNewest ((s, arr) :: hist) tid ak = (s, arr) :: sinceNewest hist tid ak := by
  constructor
  · rw [newest, List.findSome?_cons, h, newest]
  · rw [sinceNewest, List.takeWhile_cons_of_pos (by simp [h]), sinceNewest]

theorem newest_cons_some {d : Delivery} (h : arr.connection tid ak = some d) :
    newest ((s, arr) :: hist) tid ak = some d := by
  rw [newest, List.findSome?_cons, h]

theorem connection_eq_some {d : Delivery} (h : arr.connection tid ak = some d) :
    arr = .deliver d ∧ d.ev.event = .connect ∧ d.ev.tenant = tid ∧ d.ev.agentID = ak := by
  cases arr with
  | deliver d' =>
    rw [Arrival.connection] at h
    split_ifs at h with hd
    obtain rfl := Option.some.inj h
    exact ⟨rfl, hd⟩
  | wait ms => exact absurd h (by simp [Arrival.connection])

/-- Only a disconnect of its agent takes a device offline. -/
theorem online_arrive (hstep : arrive s arr = some s') (hnot : ¬arr.Disconnects ak)
    (h : s.devices.Online ak) : s'.devices.Online ak := by
  cases arr with
  | deliver d =>
    obtain rfl := Option.some.inj hstep
    exact online_handleAgentEvent h fun hkind hid => hnot ⟨hkind, hid⟩
  | wait ms =>
    obtain rfl := Option.some.inj hstep
    exact h

/-- Only a disconnect of its agent takes a score away. -/
theorem scored_arrive (htyped : Typed s.reg) (hstep : arrive s arr = some s')
    (hnot : ¬arr.Disconnects ak) (h : (s.reg.score tid ak).isSome) :
    (s'.reg.score tid ak).isSome := by
  rw [score_arrive htyped hstep]
  cases hscore : arr.newScore tid ak s.reg.now with
  | none => exact h
  | some score =>
    cases score with
    | some at_ => rfl
    | none =>
      cases arr with
      | wait ms => exact absurd hscore (by simp [Arrival.newScore])
      | deliver d =>
        rw [Arrival.newScore] at hscore
        split_ifs at hscore with hagent
        exact absurd ⟨disconnect_of_newScore hscore, hagent.2.symm⟩ hnot

/-- **From its newest connect on, an agent is online until a disconnect arrives.** -/
theorem online_since_newest {ok : History Stores Arrival → Stores → Arrival → Prop} {start : ℕ}
    {devices : Repo} {server : Redis.Server GoString}
    (h : Reach arrive ok (.init start devices server) hist s) {d : Delivery}
    (hnew : newest hist tid ak = some d) (hid : ak ≠ []) (hans : d.ans = {})
    (hnot : ∀ p ∈ sinceNewest hist tid ak, ¬p.2.Disconnects ak) :
    s.devices.Online ak ∧ (s.reg.score tid ak).isSome := by
  induction h with
  | start => exact absurd hnew (by simp [newest])
  | @next hist s s' arr hreach _ hstep ih =>
    have htyped : Typed s.reg := (score_eq_lastSeen hreach).1
    cases hconn : arr.connection tid ak with
    | none =>
      -- no connect of the agent: what was true since the newest one goes on
      obtain ⟨hnewest, hsince⟩ := @newest_cons_none hist s arr tid ak hconn
      rw [hnewest] at hnew
      rw [hsince] at hnot
      obtain ⟨honline, hscore⟩ := ih hnew fun p hp => hnot p (List.mem_cons_of_mem _ hp)
      have harr : ¬arr.Disconnects ak := hnot _ List.mem_cons_self
      exact ⟨online_arrive hstep harr honline, scored_arrive htyped hstep harr hscore⟩
    | some d' =>
      -- this one is the newest connect now, so that it is all that counts
      obtain rfl : d' = d := Option.some.inj ((newest_cons_some hconn).symm.trans hnew)
      obtain ⟨rfl, hkind, rfl, rfl⟩ := connection_eq_some hconn
      obtain rfl := Option.some.inj hstep
      rw [hans]
      obtain ⟨honline, hview⟩ := connect_online htyped hkind hid
      refine ⟨honline, Option.isSome_iff_ne_none.mpr fun hnone => ?_⟩
      rw [Registry.isOnline, hnone] at hview
      exact absurd hview (by simp)

end Newest

/-- **An agent is online from the newest connect of it to arrive until a disconnect of it
arrives**, and that disconnect takes it offline, whatever connection it is about. -/
theorem online_until_disconnect {ok : History Stores Arrival → Stores → Arrival → Prop}
    {start : ℕ} {devices : Repo} {server : Redis.Server GoString} {hist : History Stores Arrival}
    {s : Stores} {tid ak : GoString} (h : Reach arrive ok (.init start devices server) hist s)
    (hid : ak ≠ []) :
    (∀ d, newest hist tid ak = some d → d.ans = {} →
      (∀ p ∈ sinceNewest hist tid ak, ¬p.2.Disconnects ak) →
        s.devices.Online ak ∧ ∃ at_, lastSeen hist tid ak = some at_ ∧
          s.reg.isOnline tid ak = decide (s.reg.now ≤ at_ + leaseTTL)) ∧
    ∀ (d : Delivery) (s' : Stores), d.ev.event = .disconnect → d.ev.tenant = tid →
      d.ev.agentID = ak → d.ans = {} → arrive s (.deliver d) = some s' →
        ¬s'.devices.Online ak ∧ s'.reg.isOnline tid ak = false := by
  obtain ⟨htyped, hscore⟩ := score_eq_lastSeen h
  constructor
  · intro d hnew hans hnot
    obtain ⟨honline, hscored⟩ := online_since_newest h hnew hid hans hnot
    obtain ⟨at_, hat⟩ := Option.isSome_iff_exists.mp hscored
    refine ⟨honline, at_, (hscore tid ak).symm.trans hat, ?_⟩
    rw [Registry.isOnline, hat]
  · rintro d s' hkind rfl rfl hans hstep
    obtain rfl := Option.some.inj hstep
    rw [hans]
    exact disconnect_offline htyped hkind hid

/-! ### An old connection -/

/-- The connection of a delivery was opened by a connect of the same agent, through the same
instance. -/
def Opened (hist : History Stores Arrival) (d : Delivery) : Prop :=
  ∃ p ∈ hist, ∃ d₀, p.2 = .deliver d₀ ∧ d₀.conn = d.conn ∧ d₀.ev.event = .connect ∧
    d₀.ev.agentID = d.ev.agentID ∧ d₀.ev.tenant = d.ev.tenant ∧ d₀.ev.fbID = d.ev.fbID

/-- The disconnect of a connection has arrived. -/
def Closed (hist : History Stores Arrival) (conn : ℕ) : Prop :=
  ∃ p ∈ hist, ∃ d₀, p.2 = .deliver d₀ ∧ d₀.conn = conn ∧ d₀.ev.event = .disconnect

/-- A connection is opened once, and then there are heartbeats and in the end a disconnect;
the events of two connections come in any order. All calls succeed. -/
def Orderly (hist : History Stores Arrival) (_ : Stores) : Arrival → Prop
  | .wait _ => True
  | .deliver d => d.ans = {} ∧
    ((d.ev.event = .connect ∧ ∀ p ∈ hist, ∀ d₀, p.2 = .deliver d₀ → d₀.conn ≠ d.conn) ∨
      ((d.ev.event = .heartbeat ∨ d.ev.event = .disconnect) ∧ Opened hist d ∧
        ¬Closed hist d.conn))

/-- An agent is online while its newest connection is open. -/
def OnlineWhileOpen (hist : History Stores Arrival) (s : Stores) : Prop :=
  ∀ tid ak d, newest hist tid ak = some d → ¬Closed hist d.conn →
    s.devices.Online ak ∧ s.reg.isOnline tid ak = true

/-- An event of the agent `a`, on a connection through an instance. -/
def ofAgent (conn : ℕ) (fbID : GoString) (kind : AgentEventType) : Delivery where
  conn := conn
  ev := { agentID := str "a", event := kind, fbInstanceID := fbID }

/-- The agent `a` connects through `g1` and then through `g2`. -/
def movesOn : List Arrival :=
  [.deliver (ofAgent 1 (str "g1") .connect), .deliver (ofAgent 2 (str "g2") .connect)]

theorem online_until_disconnect_movesOn :
    ∃ hist s s', replay arrive [] (.init 0 .empty) movesOn = some (hist, s) ∧
      arrive s (.deliver (ofAgent 1 (str "g1") .disconnect)) = some s' ∧
      s.devices.Online (str "a") ∧ ¬s'.devices.Online (str "a") ∧
      s'.reg.isOnline (str "default") (str "a") = false := by
  obtain ⟨hist, s, hrun, s', hstep, hnew, hsince⟩ :
      ∃ hist s, replay arrive [] (.init 0 .empty) movesOn = some (hist, s) ∧
        ∃ s', arrive s (.deliver (ofAgent 1 (str "g1") .disconnect)) = some s' ∧
          newest hist (str "default") (str "a") = some (ofAgent 2 (str "g2") .connect) ∧
          sinceNewest hist (str "default") (str "a") = [] :=
    ⟨_, _, rfl, _, rfl, rfl, rfl⟩
  obtain ⟨hbefore, hafter⟩ := @online_until_disconnect _ 0 .empty _ hist s (str "default") (str "a")
    (Reach.start.replay hrun) (by decide)
  obtain ⟨honline, -⟩ := hbefore _ hnew rfl fun p hp => by
    rw [hsince] at hp
    exact absurd hp List.not_mem_nil
  obtain ⟨hoffline, hview⟩ := hafter (ofAgent 1 (str "g1") .disconnect) s' rfl rfl rfl rfl hstep
  exact ⟨hist, s, s', hrun, hstep, honline, hoffline, hview⟩

/-- The disconnect of the first connection of an agent that has moved on takes it offline. -/
theorem not_onlineWhileOpen :
    ¬∀ (start : ℕ) (devices : Repo) (hist : History Stores Arrival) (s : Stores),
      Reach arrive Orderly (.init start devices) hist s → OnlineWhileOpen hist s := by
  intro h
  have h₀ : Reach arrive Orderly (.init 0 .empty) [] (.init 0 .empty) := .start
  have h₁ := h₀.next (show Orderly _ _ (.deliver (ofAgent 1 (str "g1") .connect)) from
    ⟨rfl, Or.inl ⟨rfl, by simp⟩⟩) rfl
  have h₂ := h₁.next (show Orderly _ _ (.deliver (ofAgent 2 (str "g2") .connect)) from
    ⟨rfl, Or.inl ⟨rfl, by simp [ofAgent]⟩⟩) rfl
  have h₃ := h₂.next (show Orderly _ _ (.deliver (ofAgent 1 (str "g1") .disconnect)) from
    ⟨rfl, Or.inr ⟨Or.inr rfl, ⟨_, List.mem_cons_of_mem _ List.mem_cons_self, _,
      rfl, rfl, rfl, rfl, rfl, rfl⟩, by simp [Closed, ofAgent]⟩⟩) rfl
  obtain ⟨honline, -⟩ := h _ _ _ _ h₃ (str "default") (str "a") (ofAgent 2 (str "g2") .connect) rfl
    (by simp [Closed, ofAgent])
  exact absurd (show some AgentStatus.offline = some .online from honline) (by simp)

end Devices

end Xsiam
