import Xsiam.Go.Text
import Xsiam.Lib.Table

/-!
# The agent table of the gateway

`xsiam_agent_state.c` of the plugin `in_xsiam_agent`: what a gateway instance knows of the
agents it has seen, one entry each, in the order they came. A HELLO makes an agent connected,
the end of a connection makes it disconnected, and in between it is refreshed; each of these
is told to the server (`Xsiam.Gateway.Post`). Memory can always be had.

Whether an agent is connected is said twice in an entry, by a flag and by a status. The two
agree in every table (`Xsiam.Gateway.Consistent`), and what an operation does to the flags of
all agents is said by one lemma each.
-/

namespace Xsiam

namespace Gateway

open Go (str)

/-! ### Data -/

/-- A C string, without the NUL that ends it. -/
abbrev CString := List UInt8

/-- The C string at the start of some bytes. -/
def cString (bs : List UInt8) : CString := bs.takeWhile (· ≠ 0)

/-- `agent_status` -/
inductive Status where
  | online
  | offline
deriving DecidableEq

/-- `xsiam_agent_ctx`, by the settings that are read here. -/
structure Config where
  tenantID : CString := []
  heartbeatFlushInterval : ℤ := 180
  /-- `event_enabled`, with an upstream to post to -/
  eventEnabled : Bool := true

/-- `xsiam_agent_state` -/
structure Agent where
  agentID : CString
  tenantID : CString
  hostname : CString
  hostType : CString
  agentVersion : CString
  agentStatus : Status
  gatewayID : CString
  ip : CString
  macAddressesJSON : CString
  isConnected : Bool := false
  installedAt : ℤ
  connectedAt : ℤ := 0
  lastHeartbeat : ℤ
  lastSeen : ℤ
  createdAt : ℤ
  updatedAt : ℤ
  lastDBFlush : ℤ := 0
  dirty : Bool

/-- The list `agents`, by agent ID. -/
abbrev AgentTable := Table Agent.agentID

/-- What a HELLO says of its agent. -/
structure Hello where
  agentID : CString
  agentName : CString
  agentVersion : CString
  hostType : CString := []
  macAddressesJSON : Option CString := none
deriving DecidableEq

/-- The events that are posted. -/
inductive EventName where
  | connect
  | heartbeat
  | disconnect
  | fbHeartbeat
deriving DecidableEq

/-- A post to the server. -/
structure Post where
  event : EventName
  agentID : CString
deriving DecidableEq

/-- `post_agent_event` -/
def postAgentEvent (cfg : Config) (event : EventName) (agentID : CString) : List Post :=
  if cfg.eventEnabled then [⟨event, agentID⟩] else []

/-! ### Operations -/

variable (cfg : Config) (now : ℤ)

/-- The entry that `agent_state_get` creates. -/
def newAgent (agentID : CString) : Agent where
  agentID := agentID
  tenantID := if cfg.tenantID = [] then str "tenant-default" else cfg.tenantID
  hostname := agentID
  hostType := str "pc"
  agentVersion := str "unknown"
  agentStatus := .online
  gatewayID := str "gateway-local-001"
  ip := []
  macAddressesJSON := str "[]"
  installedAt := now
  lastHeartbeat := now
  lastSeen := now
  createdAt := now
  updatedAt := now
  dirty := true

/-- `agent_state_get` where it may create: the table has the agent then. -/
def agentStateGet (t : AgentTable) (agentID : CString) : AgentTable :=
  t.add (newAgent cfg now agentID)

/-- An entry as `agent_state_mark_seen` leaves it. -/
def seen (hello : Hello) (st : Agent) : Agent :=
  { st with
    hostname := if hello.agentName = [] then hello.agentID else hello.agentName
    agentVersion := if hello.agentVersion = [] then str "unknown" else hello.agentVersion
    hostType :=
      if hello.hostType = str "server" ∨ hello.hostType = str "pc" then hello.hostType
      else st.hostType
    macAddressesJSON := hello.macAddressesJSON.getD st.macAddressesJSON
    agentStatus := .online
    isConnected := true
    connectedAt := now
    lastSeen := now
    lastHeartbeat := now
    updatedAt := now
    dirty := true }

theorem seen_agentID (hello : Hello) (st : Agent) : (seen now hello st).agentID = st.agentID := rfl

/-- `agent_state_mark_seen`, less the binding of the connection -/
def markSeen (t : AgentTable) (hello : Hello) : AgentTable × List Post :=
  if hello.agentID = [] then (t, [])
  else
    ((agentStateGet cfg now t hello.agentID).modify hello.agentID (seen now hello)
        (seen_agentID now hello),
      postAgentEvent cfg .connect hello.agentID)

/-- An entry as `agent_state_mark_heartbeat` leaves it. -/
def refreshed (st : Agent) : Agent :=
  { st with
    lastHeartbeat := now
    lastSeen := now
    updatedAt := now
    dirty := if now - st.lastDBFlush ≥ cfg.heartbeatFlushInterval then true else st.dirty }

theorem refreshed_agentID (st : Agent) : (refreshed cfg now st).agentID = st.agentID := rfl

/-- `agent_state_mark_heartbeat` -/
def markHeartbeat (t : AgentTable) (agentID : CString) : AgentTable × List Post :=
  match t.find agentID with
  | none => (t, [])
  | some _ =>
    (t.modify agentID (refreshed cfg now) (refreshed_agentID cfg now),
      postAgentEvent cfg .heartbeat agentID)

/-- An entry as `agent_state_mark_disconnected` leaves one that is connected. -/
def disconnected (st : Agent) : Agent :=
  { st with
    isConnected := false
    agentStatus := .offline
    lastSeen := now
    updatedAt := now
    dirty := true }

theorem disconnected_agentID (st : Agent) : (disconnected now st).agentID = st.agentID := rfl

/-- `agent_state_mark_disconnected` -/
def markDisconnected (t : AgentTable) (agentID : CString) : AgentTable × List Post :=
  match t.find agentID with
  | none => (t, [])
  | some st =>
    if st.isConnected then
      (t.modify agentID (disconnected now) (disconnected_agentID now),
        postAgentEvent cfg .disconnect agentID)
    else (t, [])

/-! ### Who is connected -/

/-- An agent is connected, by the flag. -/
def Connected (t : AgentTable) (agentID : CString) : Prop :=
  ∃ st, t.find agentID = some st ∧ st.isConnected = true

/-- An agent is online, by the status. -/
def Online (t : AgentTable) (agentID : CString) : Prop :=
  ∃ st, t.find agentID = some st ∧ st.agentStatus = .online

/-- Flag and status agree. -/
def Consistent (t : AgentTable) : Prop :=
  ∀ agentID st, t.find agentID = some st → (st.isConnected = true ↔ st.agentStatus = .online)

theorem Consistent.online_iff {t : AgentTable} (h : Consistent t) (a : CString) :
    Online t a ↔ Connected t a :=
  exists_congr fun st => and_congr_right fun hst => (h a st hst).symm

theorem consistent_empty : Consistent Table.empty := by
  intro a st h
  rw [Table.find_empty] at h
  exact absurd h (by simp)

/-- A change of one entry that leaves it consistent. -/
theorem Consistent.modify {t : AgentTable} {a : CString} {f : Agent → Agent}
    (hf : ∀ st, (f st).agentID = st.agentID) (h : Consistent t)
    (hst : ∀ st, t.find a = some st →
      ((f st).isConnected = true ↔ (f st).agentStatus = .online)) :
    Consistent (t.modify a f hf) := by
  intro a' st' hfind
  rw [Table.find_modify hf] at hfind
  split_ifs at hfind with ha
  · obtain ⟨st, hst', rfl⟩ := Option.map_eq_some_iff.mp hfind
    exact hst st (ha ▸ hst')
  · exact h a' st' hfind

variable {cfg now} {t : AgentTable}

/-- What is found of an agent once it has an entry. -/
theorem find_agentStateGet (id a : CString) :
    (agentStateGet cfg now t id).find a =
      (t.find a).or (if id = a then some (newAgent cfg now id) else none) :=
  Table.find_add _ _

/-! `agent_state_mark_seen` -/

theorem find_markSeen {hello : Hello} (h : hello.agentID ≠ []) (a : CString) :
    (markSeen cfg now t hello).1.find a =
      if a = hello.agentID then
        some (seen now hello ((t.find a).getD (newAgent cfg now hello.agentID)))
      else t.find a := by
  rw [markSeen, if_neg h, Table.find_modify (seen_agentID now hello), find_agentStateGet]
  split_ifs with ha hid hid
  · rw [hid]
    cases t.find a <;> rfl
  · exact absurd ha.symm hid
  · exact absurd hid.symm ha
  · rw [Option.or_none]

/-- **A HELLO makes its agent connected.** -/
theorem connected_markSeen {hello : Hello} (h : hello.agentID ≠ []) (a : CString) :
    Connected (markSeen cfg now t hello).1 a ↔ Connected t a ∨ a = hello.agentID := by
  rw [Connected, find_markSeen h]
  by_cases ha : a = hello.agentID
  · rw [if_pos ha]
    exact iff_of_true ⟨_, rfl, rfl⟩ (Or.inr ha)
  · rw [if_neg ha, Connected]
    exact (or_iff_left ha).symm

theorem consistent_markSeen (h : Consistent t) (hello : Hello) :
    Consistent (markSeen cfg now t hello).1 := by
  by_cases hid : hello.agentID = []
  · rw [markSeen, if_pos hid]
    exact h
  · intro a st hfind
    rw [find_markSeen hid] at hfind
    split_ifs at hfind with ha
    · obtain rfl := Option.some.inj hfind
      exact iff_of_true rfl rfl
    · exact h a st hfind

/-! `agent_state_mark_heartbeat` -/

/-- **A heartbeat connects nobody and disconnects nobody.** -/
theorem connected_markHeartbeat (id a : CString) :
    Connected (markHeartbeat cfg now t id).1 a ↔ Connected t a := by
  rw [markHeartbeat]
  split
  · rfl
  · rw [Connected, Table.find_modify, Connected]
    split_ifs
    · cases t.find a with
      | none => simp
      | some st => simp [refreshed]
    · rfl

theorem consistent_markHeartbeat (h : Consistent t) (id : CString) :
    Consistent (markHeartbeat cfg now t id).1 := by
  rw [markHeartbeat]
  split
  · exact h
  · exact h.modify (refreshed_agentID cfg now) fun st hst => h id st hst

/-! `agent_state_mark_disconnected` -/

/-- **The end of a connection makes its agent disconnected.** -/
theorem connected_markDisconnected (id a : CString) :
    Connected (markDisconnected cfg now t id).1 a ↔ Connected t a ∧ a ≠ id := by
  rw [markDisconnected]
  cases hid : t.find id with
  | none =>
    refine (and_iff_left_of_imp ?_).symm
    rintro ⟨st, hst, -⟩ rfl
    exact absurd (hid.symm.trans hst) (by simp)
  | some st =>
    by_cases hconn : st.isConnected = true
    · simp only [hconn, if_true]
      rw [Connected, Table.find_modify, Connected]
      split_ifs with ha
      · rw [ha, hid]
        simp [disconnected]
      · simp [ha]
    · simp only [hconn]
      refine (and_iff_left_of_imp ?_).symm
      rintro ⟨st', hst', hconn'⟩ rfl
      rw [Option.some.inj (hid.symm.trans hst')] at hconn
      exact hconn hconn'

theorem consistent_markDisconnected (h : Consistent t) (id : CString) :
    Consistent (markDisconnected cfg now t id).1 := by
  rw [markDisconnected]
  split
  · exact h
  · split_ifs
    · exact h.modify (disconnected_agentID now) fun st _ => by simp [disconnected]
    · exact h

end Gateway

end Xsiam
