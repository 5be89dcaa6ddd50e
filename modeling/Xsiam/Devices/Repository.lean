import Xsiam.Etl.Model
import Xsiam.Lib.Collection

/-!
# The device documents

`internal/domain/device/repository.go`: a device is a document of the collection
`devices`, found by the ID of its agent. The repository stores an agent that is seen for
the first time, patches the document of one that is known, and takes the devices of a list
of agents offline with one query.

What a reader of a document learns about an agent is its status (`Xsiam.Devices.Repo.status`),
and each operation is characterised by what it does to the statuses of all agents.
-/

namespace Xsiam

namespace Devices

open Go

/-- `model.AgentStatus` -/
inductive AgentStatus where
  | online
  | offline
  | installing
  | uninstalling
  | error
  | other (name : GoString)
deriving DecidableEq

/-- `model.Device`, by the fields that are written here. -/
structure Device where
  agentID : GoString
  hostname : GoString
  ipAddresses : List GoString
  osType : GoString
  osVersion : GoString
  agentVersion : GoString
  policyID : GoString
  tenantID : GoString
  agentStatus : AgentStatus
  enrolledAt : Time
  lastHeartbeat : Option Time := none
  createdAt : Time := 0
  updatedAt : Time := 0

/-- A patch of a document: the fields it names. -/
structure Patch where
  agentStatus : Option AgentStatus := none
  lastHeartbeat : Option Time := none
  updatedAt : Option Time := none

/-- A document under a patch. -/
def Patch.apply (p : Patch) (d : Device) : Device :=
  { d with
    agentStatus := p.agentStatus.getD d.agentStatus
    lastHeartbeat := p.lastHeartbeat.or d.lastHeartbeat
    updatedAt := p.updatedAt.getD d.updatedAt }

/-- `Repo`, by the documents of `devices`. -/
abbrev Repo := Collection Device

namespace Repo

variable (r : Repo)

/-! ### Operations -/

/-- A document is one of an agent. -/
def isOf (agentID : GoString) (d : Device) : Bool := d.agentID = agentID

/-- `FindByAgentID` -/
def findByAgentID (agentID : GoString) : Option (ℕ × Device) := r.first (isOf agentID)

/-- `Create` -/
def create (dev : Device) (now : Time) : Repo :=
  r.insert { dev with createdAt := now, updatedAt := now }

/-- `Update`, where the document of a key may be missing. -/
def update (key : ℕ) (patch : Patch) (now : Time) : Option Repo :=
  Collection.update r key { patch with updatedAt := some now }.apply

/-- `UpdateStatusByKey` -/
def updateStatusByKey (key : ℕ) (status : AgentStatus) (now : Time) : Option Repo :=
  Collection.update r key (Patch.apply
    { agentStatus := some status, lastHeartbeat := some now, updatedAt := some now })

/-- The devices that `BulkOfflineByAgentKeys` takes offline. -/
def bulkMatches (tenantID : GoString) (agentKeys : List GoString) (d : Device) : Bool :=
  d.tenantID = tenantID && d.agentID ∈ agentKeys && d.agentStatus = .online

/-- `BulkOfflineByAgentKeys` -/
def bulkOfflineByAgentKeys (tenantID : GoString) (agentKeys : List GoString) (now : Time) : Repo :=
  if agentKeys = [] then r
  else r.updateWhere (fun d => bulkMatches tenantID agentKeys d.2)
    (Patch.apply { agentStatus := some .offline, updatedAt := some now })

/-- `TenantForAgentKey`, which is empty where there is no device. -/
def tenantForAgentKey (agentKey : GoString) : GoString :=
  ((r.findByAgentID agentKey).map (·.2.tenantID)).getD []

/-! ### Statuses -/

/-- The status of the device of an agent, as `FindByAgentID` finds it. -/
def status (agentID : GoString) : Option AgentStatus :=
  (r.findByAgentID agentID).map (·.2.agentStatus)

/-- The device of an agent is online. -/
def Online (agentID : GoString) : Prop := r.status agentID = some .online

instance (agentID : GoString) : Decidable (r.Online agentID) :=
  inferInstanceAs (Decidable (_ = _))

variable {r}

theorem agentID_of_find {agentID : GoString} {dev : ℕ × Device}
    (h : r.findByAgentID agentID = some dev) : dev.2.agentID = agentID := by
  have hof : isOf agentID dev.2 = true := Collection.prop_of_first h
  exact of_decide_eq_true hof

theorem status_of_find {agentID : GoString} {dev : ℕ × Device}
    (h : r.findByAgentID agentID = some dev) : r.status agentID = some dev.2.agentStatus := by
  rw [status, h, Option.map_some]

theorem status_eq_none {agentID : GoString} (h : r.findByAgentID agentID = none) :
    r.status agentID = none := by
  rw [status, h, Option.map_none]

/-- A new device has the status of its agent where there was none. -/
theorem status_create (dev : Device) (now : Time) (a : GoString) :
    (r.create dev now).status a =
      (r.status a).or (if dev.agentID = a then some dev.agentStatus else none) := by
  rw [status, findByAgentID, create, Collection.first_insert, status, findByAgentID]
  cases r.first (isOf a) with
  | some d => rfl
  | none =>
    rw [Option.none_or, Option.map_none, Option.none_or]
    by_cases ha : dev.agentID = a
    · simp [isOf, ha]
    · simp [isOf, ha]

/-- **A patch of the device of an agent**, for the statuses of all agents. -/
theorem status_patch {agentID : GoString} {dev : ℕ × Device} (p : Patch)
    (h : r.findByAgentID agentID = some dev) :
    ∃ r' : Repo, Collection.update r dev.1 p.apply = some r' ∧ ∀ a, r'.status a =
      if a = agentID then some (p.agentStatus.getD dev.2.agentStatus) else r.status a := by
  obtain ⟨r', hr', -⟩ := Collection.first_update (r := isOf agentID) (f := p.apply) h rfl
  refine ⟨r', hr', fun a => ?_⟩
  obtain ⟨r'', hr'', hfirst⟩ := Collection.first_update (r := isOf a) (f := p.apply) h rfl
  obtain rfl : r' = r'' := Option.some.inj (hr'.symm.trans hr'')
  rw [status, findByAgentID, hfirst]
  split_ifs with ha
  · -- the device itself answers
    have hdev : r.first (isOf a) = some dev := ha ▸ h
    rw [hdev, Option.map_some, if_pos rfl, Option.map_some, Patch.apply]
  · -- another one answers, whose key is another one too
    cases hd : r.first (isOf a) with
    | none => rw [status, findByAgentID, hd, Option.map_none, Option.map_none]
    | some d =>
      have hkey : d.1 ≠ dev.1 := by
        intro hkey
        have hsame : d = dev := Collection.eq_of_fst_eq (Collection.mem_of_first hd)
          (Collection.mem_of_first h) hkey
        exact ha ((agentID_of_find hd).symm.trans (hsame ▸ agentID_of_find h))
      rw [status, findByAgentID, hd, Option.map_some, if_neg hkey]

theorem status_updateStatusByKey {agentID : GoString} {dev : ℕ × Device} (st : AgentStatus)
    (now : Time) (h : r.findByAgentID agentID = some dev) :
    ∃ r' : Repo, r.updateStatusByKey dev.1 st now = some r' ∧
      ∀ a, r'.status a = if a = agentID then some st else r.status a :=
  status_patch { agentStatus := some st, lastHeartbeat := some now, updatedAt := some now } h

/-- A patch that names no status leaves all of them. -/
theorem status_update {agentID : GoString} {dev : ℕ × Device} (patch : Patch) (now : Time)
    (h : r.findByAgentID agentID = some dev) (hpatch : patch.agentStatus = none) :
    ∃ r' : Repo, r.update dev.1 patch now = some r' ∧ ∀ a, r'.status a = r.status a := by
  obtain ⟨r', hr', hstatus⟩ := status_patch { patch with updatedAt := some now } h
  refine ⟨r', hr', fun a => ?_⟩
  rw [hstatus, hpatch, Option.getD_none]
  split_ifs with ha
  · rw [ha, status_of_find h]
  · rfl

/-- **The query takes no device online**, and leaves the devices of other agents. -/
theorem online_of_bulkOffline {tenantID a : GoString} {agentKeys : List GoString} {now : Time}
    (h : (r.bulkOfflineByAgentKeys tenantID agentKeys now).Online a) : r.Online a := by
  rw [bulkOfflineByAgentKeys] at h
  split_ifs at h
  · exact h
  · rw [Online, status, findByAgentID, Collection.first_updateWhere (fun _ _ _ => rfl)] at h
    rw [Online, status, findByAgentID]
    cases hd : r.first (isOf a) with
    | none =>
      rw [hd] at h
      exact absurd h (by simp)
    | some d =>
      rw [hd, Option.map_some, Option.map_some, Collection.write] at h
      split_ifs at h
      · exact absurd h (by simp [Patch.apply])
      · rw [Option.map_some, h]

end Repo

end Devices

end Xsiam
