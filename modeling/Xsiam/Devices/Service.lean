import Xsiam.Devices.Repository
import Xsiam.Presence.Keys

/-!
# The events of agents

`HandleAgentEvent` of `internal/domain/device/service.go`: a gateway instance reports that
an agent connected, disconnected or sent a heartbeat, and the service records it twice, in
the presence registry and in the document of the device. The calls it makes may fail
(`Xsiam.Devices.Answers`): those to the registry are not looked at, and a document that
cannot be found or written is an error.

What an event does is said for the two stores apart. In the registry it scores an agent or
takes its score away (`Xsiam.Devices.score_handleAgentEvent`). In the documents a connect
makes the device of its agent online, a disconnect makes it offline, and **a heartbeat
changes no status** (`Xsiam.Devices.status_heartbeat`).
-/

namespace Xsiam

namespace Devices

open Go Presence

/-! ### Events -/

/-- `AgentEventType` -/
inductive AgentEventType where
  | connect
  | disconnect
  | heartbeat
  | fbHeartbeat
  | other (name : GoString)
deriving DecidableEq

/-- `AgentEvent` -/
structure AgentEvent where
  agentID : GoString
  event : AgentEventType
  hostname : GoString := []
  ipAddresses : List GoString := []
  osType : GoString := []
  osVersion : GoString := []
  agentVersion : GoString := []
  policyID : GoString := []
  tenantID : GoString := []
  fbInstanceID : GoString := []
  timestamp : Option Time := none

/-- The tenant of an event. -/
def AgentEvent.tenant (ev : AgentEvent) : GoString :=
  if ev.tenantID = [] then str "default" else ev.tenantID

/-- The instance that reports an event. -/
def AgentEvent.fbID (ev : AgentEvent) : GoString :=
  if ev.fbInstanceID = [] then str "unknown" else ev.fbInstanceID

/-! ### Stores and calls -/

/-- What the service writes to. -/
structure Stores where
  reg : Registry
  devices : Repo

/-- `time.Now()` -/
def Stores.clock (st : Stores) : Time := st.reg.now * 1000000

/-- The time of an event. -/
def AgentEvent.now (ev : AgentEvent) (st : Stores) : Time := ev.timestamp.getD st.clock

/-- How a query for one document goes. -/
inductive FindAnswer where
  | answered
  | queryError
  /-- The cursor cannot be read, which is taken for no document. -/
  | readError
deriving DecidableEq

/-- How the calls of one event go. -/
structure Answers where
  touch : Bool := true
  renewFB : Bool := true
  remove : Bool := true
  find : FindAnswer := .answered
  write : Bool := true
deriving DecidableEq

/-- The errors of `HandleAgentEvent`. -/
inductive Error where
  /-- `agent_id required for event %q` -/
  | agentIDRequired (event : AgentEventType)
  /-- `findByAgentID: %w`, around the error of the query -/
  | findByAgentID
  | query
  | write
deriving DecidableEq

/-- What `FindByAgentID` returns. -/
def find (ans : Answers) (devices : Repo) (agentID : GoString) :
    Except Error (Option (ℕ × Device)) :=
  match ans.find with
  | .answered => .ok (devices.findByAgentID agentID)
  | .queryError => .error .query
  | .readError => .ok none

/-- A document is written, or nothing is and that is the error. -/
def Stores.write (st : Stores) (ans : Answers) (devices : Option Repo) : Stores × Option Error :=
  match devices with
  | some devices => if ans.write then ({ st with devices }, none) else (st, some .write)
  | none => (st, some .write)

/-- The registry after `Touch`. -/
def touched (ans : Answers) (reg : Registry) (ev : AgentEvent) : Registry :=
  if ans.touch then reg.touch ev.tenant ev.agentID ev.fbID else reg

/-- The registry after `RenewFB`. -/
def renewed (ans : Answers) (reg : Registry) (ev : AgentEvent) : Registry :=
  if ans.renewFB then reg.renewFB ev.fbID else reg

/-- The registry after `Touch` and `RenewFB`. -/
def seen (ans : Answers) (reg : Registry) (ev : AgentEvent) : Registry :=
  renewed ans (touched ans reg ev) ev

/-- The registry after `Remove`. -/
def removed (ans : Answers) (reg : Registry) (ev : AgentEvent) : Registry :=
  if ans.remove then reg.remove ev.tenant ev.agentID ev.fbID else reg

/-! ### The handler -/

/-- The device of an agent that connects for the first time. -/
def newDevice (ev : AgentEvent) (now : Time) : Device where
  agentID := ev.agentID
  hostname := ev.hostname
  ipAddresses := ev.ipAddresses
  osType := ev.osType
  osVersion := ev.osVersion
  agentVersion := ev.agentVersion
  policyID := ev.policyID
  tenantID := ev.tenant
  agentStatus := .online
  enrolledAt := now

/-- The branch of `AgentEventConnect`. -/
def onConnect (ans : Answers) (st : Stores) (ev : AgentEvent) : Stores × Option Error :=
  let now := ev.now st
  let st := { st with reg := seen ans st.reg ev }
  match find ans st.devices ev.agentID with
  | .error _ => (st, some .findByAgentID)
  | .ok none => st.write ans (some (st.devices.create (newDevice ev now) st.clock))
  | .ok (some dev) => st.write ans (st.devices.updateStatusByKey dev.1 .online now)

/-- The branch of `AgentEventDisconnect`. -/
def onDisconnect (ans : Answers) (st : Stores) (ev : AgentEvent) : Stores × Option Error :=
  let now := ev.now st
  let st := { st with reg := removed ans st.reg ev }
  match find ans st.devices ev.agentID with
  | .error e => (st, some e)
  | .ok none => (st, none)
  | .ok (some dev) =>
    if dev.2.agentStatus = .online then
      st.write ans (st.devices.updateStatusByKey dev.1 .offline now)
    else (st, none)

/-- The branch of `AgentEventHeartbeat`. -/
def onHeartbeat (ans : Answers) (st : Stores) (ev : AgentEvent) : Stores × Option Error :=
  let now := ev.now st
  let st := { st with reg := seen ans st.reg ev }
  match find ans st.devices ev.agentID with
  | .error e => (st, some e)
  | .ok none => (st, none)
  | .ok (some dev) =>
    st.write ans (st.devices.update dev.1 { lastHeartbeat := some now, updatedAt := some now }
      st.clock)

/-- `HandleAgentEvent` -/
def handleAgentEvent (ans : Answers) (st : Stores) (ev : AgentEvent) : Stores × Option Error :=
  if ev.event ≠ .fbHeartbeat ∧ ev.agentID = [] then (st, some (.agentIDRequired ev.event))
  else
    match ev.event with
    | .connect => onConnect ans st ev
    | .disconnect => onDisconnect ans st ev
    | .heartbeat => onHeartbeat ans st ev
    | .fbHeartbeat => ({ st with reg := renewed ans st.reg ev }, none)
    | .other _ => (st, none)

/-! ### What an event does to the registry -/

section RegistryPart

variable {ans : Answers} {st : Stores} {ev : AgentEvent}

theorem Stores.write_reg (st : Stores) (ans : Answers) (devices : Option Repo) :
    (st.write ans devices).1.reg = st.reg := by
  rw [Stores.write.eq_def]
  split
  · split_ifs
    · rfl
    · rfl
  · rfl

theorem onConnect_reg : (onConnect ans st ev).1.reg = seen ans st.reg ev := by
  rw [onConnect]
  split
  · rfl
  · exact Stores.write_reg _ _ _
  · exact Stores.write_reg _ _ _

theorem onDisconnect_reg : (onDisconnect ans st ev).1.reg = removed ans st.reg ev := by
  rw [onDisconnect]
  split
  · rfl
  · rfl
  · split_ifs
    · exact Stores.write_reg _ _ _
    · rfl

theorem onHeartbeat_reg : (onHeartbeat ans st ev).1.reg = seen ans st.reg ev := by
  rw [onHeartbeat]
  split
  · rfl
  · rfl
  · exact Stores.write_reg _ _ _

/-- The part of an event that the registry sees. -/
theorem handleAgentEvent_reg : (handleAgentEvent ans st ev).1.reg =
    if ev.event ≠ .fbHeartbeat ∧ ev.agentID = [] then st.reg
    else match ev.event with
      | .connect => seen ans st.reg ev
      | .heartbeat => seen ans st.reg ev
      | .disconnect => removed ans st.reg ev
      | .fbHeartbeat => renewed ans st.reg ev
      | .other _ => st.reg := by
  rw [handleAgentEvent]
  split_ifs
  · rfl
  · cases ev.event with
    | connect => exact onConnect_reg
    | disconnect => exact onDisconnect_reg
    | heartbeat => exact onHeartbeat_reg
    | fbHeartbeat => rfl
    | other name => rfl

variable {reg : Registry}

theorem typed_touched (h : Typed reg) : Typed (touched ans reg ev) := by
  rw [touched]
  split_ifs
  · exact h.touch _ _ _
  · exact h

theorem typed_renewed (h : Typed reg) : Typed (renewed ans reg ev) := by
  rw [renewed]
  split_ifs
  · exact h.renewFB _
  · exact h

theorem typed_removed (h : Typed reg) : Typed (removed ans reg ev) := by
  rw [removed]
  split_ifs
  · exact h.remove _ _ _
  · exact h

/-- The keys of the registry stay typed. -/
theorem typed_handleAgentEvent (h : Typed st.reg) : Typed (handleAgentEvent ans st ev).1.reg := by
  rw [handleAgentEvent_reg]
  split_ifs
  · exact h
  · split
    · exact typed_renewed (typed_touched h)
    · exact typed_renewed (typed_touched h)
    · exact typed_removed h
    · exact typed_renewed h
    · exact h

theorem score_renewed (tid a : GoString) : (renewed ans reg ev).score tid a = reg.score tid a := by
  rw [renewed]
  split_ifs
  · exact Registry.score_renewFB _ _ _
  · rfl

/-- **An agent that is seen has the time of the call for its score.** -/
theorem score_seen (h : Typed reg) (tid a : GoString) :
    (seen ans reg ev).score tid a =
      if (tid = ev.tenant ∧ a = ev.agentID) ∧ ans.touch = true then some reg.now
      else reg.score tid a := by
  rw [seen, score_renewed, touched]
  by_cases htouch : ans.touch = true
  · rw [if_pos htouch, Registry.score_touch h]
    exact if_congr (and_iff_left htouch).symm rfl rfl
  · rw [if_neg htouch, if_neg fun hc => htouch hc.2]

theorem score_removed (h : Typed reg) (tid a : GoString) :
    (removed ans reg ev).score tid a =
      if (tid = ev.tenant ∧ a = ev.agentID) ∧ ans.remove = true then none
      else reg.score tid a := by
  rw [removed]
  by_cases hremove : ans.remove = true
  · rw [if_pos hremove, Registry.score_remove h]
    exact if_congr (and_iff_left hremove).symm rfl rfl
  · rw [if_neg hremove, if_neg fun hc => hremove hc.2]

theorem now_seen (reg : Registry) : (seen ans reg ev).now = reg.now := by
  have htouched : (touched ans reg ev).now = reg.now := by
    rw [touched]
    split_ifs
    · exact Registry.now_touch _ _ _
    · rfl
  rw [seen, renewed]
  split_ifs
  · exact (Registry.now_renewFB _).trans htouched
  · exact htouched

/-- No event takes time. -/
theorem now_handleAgentEvent : (handleAgentEvent ans st ev).1.reg.now = st.reg.now := by
  rw [handleAgentEvent_reg]
  have hrenewed : ∀ reg : Registry, (renewed ans reg ev).now = reg.now := by
    intro reg
    rw [renewed]
    split_ifs
    · exact Registry.now_renewFB _
    · rfl
  have hremoved : (removed ans st.reg ev).now = st.reg.now := by
    rw [removed]
    split_ifs
    · exact Registry.now_remove _ _ _
    · rfl
  split_ifs
  · rfl
  · split
    · exact now_seen st.reg
    · exact now_seen st.reg
    · exact hremoved
    · exact hrenewed st.reg
    · rfl

/-- What an event makes of the score of its agent, where it changes it. -/
def newScore (ans : Answers) (now : ℕ) (ev : AgentEvent) : Option (Option ℕ) :=
  if ev.agentID = [] then none
  else
    match ev.event with
    | .connect => if ans.touch then some (some now) else none
    | .heartbeat => if ans.touch then some (some now) else none
    | .disconnect => if ans.remove then some none else none
    | _ => none

/-- Only a disconnect takes a score away. -/
theorem disconnect_of_newScore {now : ℕ} (h : newScore ans now ev = some none) :
    ev.event = .disconnect := by
  cases hkind : ev.event with
  | disconnect => rfl
  | _ =>
    -- the others leave the score or set it
    rw [newScore, hkind] at h
    split_ifs at h <;> exact absurd h (by simp)

/-- **What an event does to the scores.** -/
theorem score_handleAgentEvent (h : Typed st.reg) (tid a : GoString) :
    (handleAgentEvent ans st ev).1.reg.score tid a =
      if tid = ev.tenant ∧ a = ev.agentID then
        (newScore ans st.reg.now ev).getD (st.reg.score tid a)
      else st.reg.score tid a := by
  rw [handleAgentEvent_reg, newScore]
  by_cases hrequired : ev.event ≠ .fbHeartbeat ∧ ev.agentID = []
  · rw [if_pos hrequired, if_pos hrequired.2, Option.getD_none, ite_self]
  · rw [if_neg hrequired]
    have hid : ev.event ≠ .fbHeartbeat → ev.agentID ≠ [] := fun hev hid => hrequired ⟨hev, hid⟩
    by_cases hagent : tid = ev.tenant ∧ a = ev.agentID
    · -- the agent of the event: three kinds of event write its score, the call may fail
      rw [if_pos hagent]
      cases hev : ev.event with
      | connect =>
        rw [if_neg (hid (by simp [hev]))]
        cases htouch : ans.touch <;> simp [score_seen h, hagent, htouch]
      | heartbeat =>
        rw [if_neg (hid (by simp [hev]))]
        cases htouch : ans.touch <;> simp [score_seen h, hagent, htouch]
      | disconnect =>
        rw [if_neg (hid (by simp [hev]))]
        cases hremove : ans.remove <;> simp [score_removed h, hagent, hremove]
      | fbHeartbeat =>
        rw [ite_self, Option.getD_none]
        exact score_renewed tid a
      | other name => rw [ite_self, Option.getD_none]
    · -- any other agent, or the same one under another tenant: nothing is written
      rw [if_neg hagent]
      cases ev.event with
      | connect => exact (score_seen h tid a).trans (if_neg fun hc => hagent hc.1)
      | heartbeat => exact (score_seen h tid a).trans (if_neg fun hc => hagent hc.1)
      | disconnect => exact (score_removed h tid a).trans (if_neg fun hc => hagent hc.1)
      | fbHeartbeat => exact score_renewed tid a
      | other name => rfl

end RegistryPart

/-! ### What an event does to the documents -/

section DocumentPart

variable {ans : Answers} {st : Stores} {ev : AgentEvent}

/-- A document found is one of the collection. -/
theorem find_eq_some {devices : Repo} {agentID : GoString} {dev : ℕ × Device}
    (h : find ans devices agentID = .ok (some dev)) : devices.findByAgentID agentID = some dev := by
  rw [find] at h
  split at h
  · exact Except.ok.inj h
  · exact absurd h (by simp)
  · exact absurd h (by simp)

theorem Stores.write_ok (st : Stores) (hans : ans.write = true) (devices : Repo) :
    st.write ans (some devices) = ({ st with devices }, none) := if_pos hans

/-- Whatever becomes of a write: what holds with it and without it. -/
theorem Stores.write_devices {P : Repo → Prop} {r : Option Repo} (h : P st.devices)
    (hr : ∀ devices ∈ r, P devices) : P (st.write ans r).1.devices := by
  rw [Stores.write.eq_def]
  split
  · split_ifs
    · exact hr _ rfl
    · exact h
  · exact h

/-- **A connect that is answered makes the device of its agent online.** -/
theorem status_onConnect (hfind : ans.find = .answered) (hwrite : ans.write = true)
    (a : GoString) : (onConnect ans st ev).1.devices.status a =
      if a = ev.agentID then some .online else st.devices.status a := by
  cases hdev : st.devices.findByAgentID ev.agentID with
  | none =>
    simp only [onConnect, find, hfind, hdev]
    rw [Stores.write_ok _ hwrite, Repo.status_create]
    by_cases ha : a = ev.agentID
    · rw [if_pos ha, ha, Repo.status_eq_none hdev, Option.none_or]
      exact if_pos rfl
    · rw [if_neg ha, if_neg fun heq => ha heq.symm, Option.or_none]
  | some dev =>
    obtain ⟨r, hr, hstatus⟩ := Repo.status_updateStatusByKey .online (ev.now st) hdev
    simp only [onConnect, find, hfind, hdev]
    rw [hr, Stores.write_ok _ hwrite]
    exact hstatus a

/-- **A disconnect that is answered takes the device of its agent offline**, if it was
online. -/
theorem status_onDisconnect (hfind : ans.find = .answered) (hwrite : ans.write = true)
    (a : GoString) : (onDisconnect ans st ev).1.devices.status a =
      if a = ev.agentID ∧ st.devices.Online a then some .offline else st.devices.status a := by
  cases hdev : st.devices.findByAgentID ev.agentID with
  | none =>
    simp only [onDisconnect, find, hfind, hdev]
    refine (if_neg ?_).symm
    rintro ⟨rfl, honline⟩
    exact absurd ((Repo.status_eq_none hdev).symm.trans honline) (by simp)
  | some dev =>
    have hold : st.devices.status ev.agentID = some dev.2.agentStatus := Repo.status_of_find hdev
    obtain ⟨r, hr, hstatus⟩ := Repo.status_updateStatusByKey .offline (ev.now st) hdev
    simp only [onDisconnect, find, hfind, hdev]
    by_cases honline : dev.2.agentStatus = .online
    · rw [if_pos honline, hr, Stores.write_ok _ hwrite]
      refine (hstatus a).trans (if_congr ?_ rfl rfl)
      refine ⟨fun ha => ⟨ha, ?_⟩, And.left⟩
      rw [ha, Repo.Online, hold, honline]
    · rw [if_neg honline, if_neg]
      rintro ⟨rfl, ha⟩
      exact honline (Option.some.inj (hold.symm.trans ha))

/-- **A heartbeat changes no status**, whatever its calls are answered. -/
theorem status_onHeartbeat (a : GoString) :
    (onHeartbeat ans st ev).1.devices.status a = st.devices.status a := by
  cases hfind : ans.find with
  | queryError => simp only [onHeartbeat, find, hfind]
  | readError => simp only [onHeartbeat, find, hfind]
  | answered =>
    cases hdev : st.devices.findByAgentID ev.agentID with
    | none => simp only [onHeartbeat, find, hfind, hdev]
    | some dev =>
      obtain ⟨r, hr, hstatus⟩ := Repo.status_update
        { lastHeartbeat := some (ev.now st), updatedAt := some (ev.now st) }
        (Stores.clock ⟨seen ans st.reg ev, st.devices⟩) hdev rfl
      simp only [onHeartbeat, find, hfind, hdev]
      rw [hr, Stores.write.eq_def]
      split_ifs
      · exact hstatus a
      · rfl

/-- A connect and a disconnect write the device of their agent only. -/
theorem status_onConnect_of_ne {a : GoString} (ha : a ≠ ev.agentID) :
    (onConnect ans st ev).1.devices.status a = st.devices.status a := by
  rw [onConnect]
  split
  · rfl
  · refine Stores.write_devices (P := fun r => r.status a = st.devices.status a) rfl ?_
    rintro r hr
    obtain rfl := Option.some.inj hr
    have hne : (newDevice ev (ev.now st)).agentID ≠ a := ha.symm
    rw [Repo.status_create, if_neg hne, Option.or_none]
  · next dev hdev =>
    obtain ⟨r', hr', hstatus⟩ :=
      Repo.status_updateStatusByKey .online (ev.now st) (find_eq_some hdev)
    refine Stores.write_devices (P := fun r => r.status a = st.devices.status a) rfl ?_
    rintro r hr
    obtain rfl : r' = r := Option.some.inj (hr'.symm.trans hr)
    exact (hstatus a).trans (if_neg ha)

theorem status_onDisconnect_of_ne {a : GoString} (ha : a ≠ ev.agentID) :
    (onDisconnect ans st ev).1.devices.status a = st.devices.status a := by
  rw [onDisconnect]
  split
  · rfl
  · rfl
  · next dev hdev =>
    obtain ⟨r', hr', hstatus⟩ :=
      Repo.status_updateStatusByKey .offline (ev.now st) (find_eq_some hdev)
    split_ifs
    · refine Stores.write_devices (P := fun r => r.status a = st.devices.status a) rfl ?_
      rintro r hr
      obtain rfl : r' = r := Option.some.inj (hr'.symm.trans hr)
      exact (hstatus a).trans (if_neg ha)
    · rfl

/-- A connect keeps the device of its agent online. -/
theorem online_onConnect {a : GoString} (h : st.devices.Online a) :
    (onConnect ans st ev).1.devices.Online a := by
  rw [onConnect]
  split
  · exact h
  · refine Stores.write_devices (P := fun r => r.Online a) h ?_
    rintro r hr
    obtain rfl := Option.some.inj hr
    rw [Repo.Online, Repo.status_create, h, Option.some_or]
  · next dev hdev =>
    obtain ⟨r', hr', hstatus⟩ :=
      Repo.status_updateStatusByKey .online (ev.now st) (find_eq_some hdev)
    refine Stores.write_devices (P := fun r => r.Online a) h ?_
    rintro r hr
    obtain rfl : r' = r := Option.some.inj (hr'.symm.trans hr)
    rw [Repo.Online, hstatus]
    split_ifs
    · rfl
    · exact h

/-- A disconnect takes no device online. -/
theorem online_of_onDisconnect {a : GoString} (h : (onDisconnect ans st ev).1.devices.Online a) :
    st.devices.Online a := by
  by_cases ha : a = ev.agentID
  · rw [onDisconnect] at h
    split at h
    · exact h
    · exact h
    · next dev hdev =>
      obtain ⟨r', hr', hstatus⟩ :=
        Repo.status_updateStatusByKey .offline (ev.now st) (find_eq_some hdev)
      split_ifs at h with honline
      · rw [ha, Repo.Online, Repo.status_of_find (find_eq_some hdev), honline]
      · exact h
  · rwa [Repo.Online, status_onDisconnect_of_ne ha] at h

/-- **Only a disconnect of its agent takes a device offline**, whatever the calls are
answered. -/
theorem online_handleAgentEvent {a : GoString} (h : st.devices.Online a)
    (hev : ev.event = .disconnect → ev.agentID ≠ a) :
    (handleAgentEvent ans st ev).1.devices.Online a := by
  rw [handleAgentEvent]
  split_ifs
  · exact h
  · cases hkind : ev.event with
    | connect => exact online_onConnect h
    | disconnect => exact (status_onDisconnect_of_ne (hev hkind).symm).trans h
    | heartbeat => exact (status_onHeartbeat a).trans h
    | fbHeartbeat => exact h
    | other name => exact h

/-- **Only a connect of its agent takes a device online.** -/
theorem online_of_handleAgentEvent {a : GoString}
    (h : (handleAgentEvent ans st ev).1.devices.Online a)
    (hev : ev.event = .connect → ev.agentID ≠ a) : st.devices.Online a := by
  rw [handleAgentEvent] at h
  split_ifs at h
  · exact h
  · cases hkind : ev.event with
    | connect =>
      rw [hkind] at h
      exact (status_onConnect_of_ne (hev hkind).symm).symm.trans h
    | disconnect =>
      rw [hkind] at h
      exact online_of_onDisconnect h
    | heartbeat =>
      rw [hkind] at h
      exact (status_onHeartbeat a).symm.trans h
    | fbHeartbeat =>
      rw [hkind] at h
      exact h
    | other name =>
      rw [hkind] at h
      exact h

end DocumentPart

/-! ### Events whose calls succeed -/

section Succeeding

variable {st : Stores} {ev : AgentEvent}

/-- Only an event without an agent is an error then. -/
theorem agentID_ne_nil (hkind : ev.event ≠ .fbHeartbeat)
    (hok : (handleAgentEvent {} st ev).2 = none) : ev.agentID ≠ [] := by
  intro hid
  rw [handleAgentEvent, if_pos ⟨hkind, hid⟩] at hok
  exact absurd hok (by simp)

theorem isOnline_seen (h : Typed st.reg) :
    (seen {} st.reg ev).isOnline ev.tenant ev.agentID = true := by
  rw [Registry.isOnline, score_seen h, if_pos ⟨⟨rfl, rfl⟩, rfl⟩, now_seen]
  exact decide_eq_true (Nat.le_add_right _ _)

theorem isOnline_removed (h : Typed st.reg) :
    (removed {} st.reg ev).isOnline ev.tenant ev.agentID = false := by
  rw [Registry.isOnline, score_removed h, if_pos ⟨⟨rfl, rfl⟩, rfl⟩]

/-- **A connect makes its agent online in both stores.** -/
theorem connect_online (h : Typed st.reg) (hkind : ev.event = .connect)
    (hid : ev.agentID ≠ []) :
    (handleAgentEvent {} st ev).1.devices.Online ev.agentID ∧
      (handleAgentEvent {} st ev).1.reg.isOnline ev.tenant ev.agentID = true := by
  rw [handleAgentEvent, if_neg fun hc => hid hc.2, hkind]
  constructor
  · exact (status_onConnect rfl rfl ev.agentID).trans (if_pos rfl)
  · rw [onConnect_reg]
    exact isOnline_seen h

/-- **A disconnect takes its agent offline in both stores**, whichever instance reports it. -/
theorem disconnect_offline (h : Typed st.reg) (hkind : ev.event = .disconnect)
    (hid : ev.agentID ≠ []) :
    ¬(handleAgentEvent {} st ev).1.devices.Online ev.agentID ∧
      (handleAgentEvent {} st ev).1.reg.isOnline ev.tenant ev.agentID = false := by
  rw [handleAgentEvent, if_neg fun hc => hid hc.2, hkind]
  constructor
  · intro honline
    have hbefore : st.devices.Online ev.agentID := online_of_onDisconnect honline
    have hafter := (status_onDisconnect rfl rfl ev.agentID).symm.trans honline
    rw [if_pos ⟨rfl, hbefore⟩] at hafter
    exact absurd hafter (by simp)
  · rw [onDisconnect_reg]
    exact isOnline_removed h

/-- **A heartbeat makes its agent online in the registry only.** -/
theorem heartbeat_online (h : Typed st.reg) (hkind : ev.event = .heartbeat)
    (hid : ev.agentID ≠ []) :
    ((handleAgentEvent {} st ev).1.devices.Online ev.agentID ↔ st.devices.Online ev.agentID) ∧
      (handleAgentEvent {} st ev).1.reg.isOnline ev.tenant ev.agentID = true := by
  rw [handleAgentEvent, if_neg fun hc => hid hc.2, hkind]
  constructor
  · rw [Repo.Online, status_onHeartbeat, Repo.Online]
  · rw [onHeartbeat_reg]
    exact isOnline_seen h

end Succeeding

end Devices

end Xsiam
