import Xsiam.Devices.Service
import Xsiam.Lib.Prog

/-!
# Devices that register at the same time

`HandleAgentEvent` call by call, so that several events can be in progress at once: the calls to the
registry, the search for the device of an agent, and the write that follows. One event after the other
this is the handler of `Xsiam.Devices.handleAgentEvent` (`Xsiam.Devices.run_program`).

The search asks for the ID of the agent only, and nothing holds the place of a device between the search
and the write. So each tenant has one device for each agent that has connected, and is left alone by the
events of others, in a run whose searches find no device of another tenant and whose devices are still
missing when they are created (`Xsiam.Devices.registered_of_apart`). Two gateways that report one agent
at the same time make two devices of it (`Xsiam.Devices.registered_twice`).
-/

namespace Xsiam

namespace Devices

open Go Presence

/-! ### Calls -/

/-- The calls of an event. -/
inductive Call where
  | touch (ev : AgentEvent)
  | renewFB (ev : AgentEvent)
  | remove (ev : AgentEvent)
  | find (agentID : GoString)
  | create (dev : Device)
  | updateStatusByKey (key : ℕ) (status : AgentStatus) (now : Time)
  | update (key : ℕ) (patch : Patch)

/-- What a call returns. The errors of the registry are not looked at. -/
abbrev Call.Reply : Call → Type
  | .touch _ | .renewFB _ | .remove _ => Unit
  | .find _ => Except Error (Option (ℕ × Device))
  | .create _ | .updateStatusByKey .. | .update .. => Option Error

/-- A program that makes these calls. -/
abbrev Handling := Prog Call.Reply

namespace Handling

def touch (ev : AgentEvent) : Handling Unit := Prog.send (Call.touch ev)

def renewFB (ev : AgentEvent) : Handling Unit := Prog.send (Call.renewFB ev)

def remove (ev : AgentEvent) : Handling Unit := Prog.send (Call.remove ev)

def find (agentID : GoString) : Handling (Except Error (Option (ℕ × Device))) :=
  Prog.send (Call.find agentID)

def create (dev : Device) : Handling (Option Error) := Prog.send (Call.create dev)

def updateStatusByKey (key : ℕ) (status : AgentStatus) (now : Time) : Handling (Option Error) :=
  Prog.send (Call.updateStatusByKey key status now)

def update (key : ℕ) (patch : Patch) : Handling (Option Error) := Prog.send (Call.update key patch)

end Handling

/-- How a call goes, and the time that passes before it. -/
structure Turn where
  ans : Answers := {}
  wait : ℕ := 0

/-- Time passes. -/
def Stores.wait (st : Stores) (ms : ℕ) : Stores := { st with reg := Redis.Db.wait st.reg ms }

/-- A write, with its reply. -/
def Stores.written (st : Stores) (ans : Answers) (devices : Option Repo) :
    Option (Option Error) × Stores :=
  (some (st.write ans devices).2, (st.write ans devices).1)

/-- What the stores do with a call. -/
def answer (ans : Answers) : Prog.Service Call.Reply Stores
  | .touch ev, st => (some (), { st with reg := touched ans st.reg ev })
  | .renewFB ev, st => (some (), { st with reg := renewed ans st.reg ev })
  | .remove ev, st => (some (), { st with reg := removed ans st.reg ev })
  | .find agentID, st => (some (find ans st.devices agentID), st)
  | .create dev, st => st.written ans (some (st.devices.create dev st.clock))
  | .updateStatusByKey key status now, st =>
    st.written ans (st.devices.updateStatusByKey key status now)
  | .update key patch, st => st.written ans (st.devices.update key patch st.clock)

/-- What the stores do with a call when its turn has come. -/
def serve (w : Turn) : Prog.Service Call.Reply Stores := fun i st => answer w.ans i (st.wait w.wait)

/-! ### Events, call by call -/

/-- An event as it arrives, with the time. -/
structure Request where
  ev : AgentEvent
  arrival : Time

/-- The time of an event. -/
def Request.now (req : Request) : Time := req.ev.timestamp.getD req.arrival

/-- The branch of `AgentEventConnect`. -/
def Request.onConnect (req : Request) : Handling (Option Error) := do
  Handling.touch req.ev
  Handling.renewFB req.ev
  match ← Handling.find req.ev.agentID with
  | .error _ => pure (some .findByAgentID)
  | .ok none => Handling.create (newDevice req.ev req.now)
  | .ok (some dev) => Handling.updateStatusByKey dev.1 .online req.now

/-- The branch of `AgentEventDisconnect`. -/
def Request.onDisconnect (req : Request) : Handling (Option Error) := do
  Handling.remove req.ev
  match ← Handling.find req.ev.agentID with
  | .error e => pure (some e)
  | .ok none => pure none
  | .ok (some dev) =>
    if dev.2.agentStatus = .online then Handling.updateStatusByKey dev.1 .offline req.now
    else pure none

/-- The branch of `AgentEventHeartbeat`. -/
def Request.onHeartbeat (req : Request) : Handling (Option Error) := do
  Handling.touch req.ev
  Handling.renewFB req.ev
  match ← Handling.find req.ev.agentID with
  | .error e => pure (some e)
  | .ok none => pure none
  | .ok (some dev) =>
    Handling.update dev.1 { lastHeartbeat := some req.now, updatedAt := some req.now }

/-- `HandleAgentEvent` -/
def Request.program (req : Request) : Handling (Option Error) :=
  if req.ev.event ≠ .fbHeartbeat ∧ req.ev.agentID = [] then
    pure (some (.agentIDRequired req.ev.event))
  else
    match req.ev.event with
    | .connect => req.onConnect
    | .disconnect => req.onDisconnect
    | .heartbeat => req.onHeartbeat
    | .fbHeartbeat => do
      Handling.renewFB req.ev
      pure none
    | .other _ => pure none

/-! ### One event after the other -/

section Alone

variable (ans : Answers) (st : Stores) (ev : AgentEvent)

theorem run_onConnect : Prog.run (answer ans) (Request.onConnect ⟨ev, st.clock⟩) st =
    (some (Devices.onConnect ans st ev).2, (Devices.onConnect ans st ev).1) := by
  rw [Request.onConnect, Devices.onConnect]
  simp only [Handling.touch, Handling.renewFB, Handling.find, Prog.send_bind, Prog.run, answer]
  rcases find ans st.devices ev.agentID with e | _ | dev
  · rfl
  · simp only [Handling.create, Prog.send, Prog.run, answer, Stores.written]
    rfl
  · rfl

theorem run_onDisconnect : Prog.run (answer ans) (Request.onDisconnect ⟨ev, st.clock⟩) st =
    (some (Devices.onDisconnect ans st ev).2, (Devices.onDisconnect ans st ev).1) := by
  rw [Request.onDisconnect, Devices.onDisconnect]
  simp only [Handling.remove, Handling.find, Prog.send_bind, Prog.run, answer]
  rcases find ans st.devices ev.agentID with e | _ | dev
  · rfl
  · rfl
  · simp only
    split_ifs
    · rfl
    · rfl

theorem run_onHeartbeat : Prog.run (answer ans) (Request.onHeartbeat ⟨ev, st.clock⟩) st =
    (some (Devices.onHeartbeat ans st ev).2, (Devices.onHeartbeat ans st ev).1) := by
  rw [Request.onHeartbeat, Devices.onHeartbeat]
  simp only [Handling.touch, Handling.renewFB, Handling.find, Prog.send_bind, Prog.run, answer]
  rcases find ans st.devices ev.agentID with e | _ | dev
  · rfl
  · rfl
  · simp only [Handling.update, Prog.send, Prog.run, answer, Stores.written]
    rfl

/-- **An event that is handled alone is handled as one step.** -/
theorem run_program : Prog.run (answer ans) (Request.program ⟨ev, st.clock⟩) st =
    (some (handleAgentEvent ans st ev).2, (handleAgentEvent ans st ev).1) := by
  rw [Request.program, handleAgentEvent]
  split_ifs with hID
  · rfl
  · cases hkind : ev.event with
    | connect => exact run_onConnect ans st ev
    | disconnect => exact run_onDisconnect ans st ev
    | heartbeat => exact run_onHeartbeat ans st ev
    | fbHeartbeat => rfl
    | other name => rfl

end Alone

/-! ### What is left of an event -/

/-- The key that a call writes to. -/
def Call.key : Call → Option ℕ
  | .updateStatusByKey key _ _ => some key
  | .update key _ => some key
  | _ => none

/-- The key that a program writes to with its next call. -/
def nextKey {α : Type} : Handling α → Option ℕ
  | .call i _ => i.key
  | _ => none

/-- The device that a call has found. -/
def Call.found : (i : Call) → i.Reply → Option (ℕ × Device)
  | .find _, .ok dev => dev
  | _, _ => none

/-- A call has written a device. -/
def Call.wrote : (i : Call) → i.Reply → Bool
  | .create _, none => true
  | .updateStatusByKey .., none => true
  | .update .., none => true
  | _, _ => false

/-- The calls of an event: its agent is searched for, and its device is created. -/
def Request.Asks (req : Request) : Call → Prop
  | .find agentID => agentID = req.ev.agentID
  | .create dev => dev = newDevice req.ev req.now
  | _ => True

/-- What is left of an event goes on from what its calls return: it writes to the device that was found,
which is online if this is a disconnect, and a connect ends without an error only behind a write. -/
def Request.GoesOn (req : Request) : Handling (Option Error) → Prop
  | .done _ => True
  | .crash => True
  | .call i next => req.Asks i ∧ ∀ r, req.GoesOn (next r) ∧
      (∀ key ∈ nextKey (next r), ∃ dev ∈ i.found r, dev.1 = key ∧
        (req.ev.event = .disconnect → dev.2.agentStatus = .online)) ∧
      (req.ev.event = .connect → next r = .done none → i.wrote r = true)

section GoesOn

variable {req : Request}

/-- A call behind which no write comes at once, and no end. -/
theorem goesOn_call {i : Call} {next : i.Reply → Handling (Option Error)} (hi : req.Asks i)
    (hnext : ∀ r, req.GoesOn (next r)) (hkey : ∀ r, nextKey (next r) = none)
    (hend : ∀ r, req.ev.event = .connect → next r ≠ .done none) : req.GoesOn (.call i next) :=
  ⟨hi, fun r => ⟨hnext r, fun key h => by simp [hkey r] at h, fun hkind h => absurd h (hend r hkind)⟩⟩

theorem goesOn_create : req.GoesOn (Handling.create (newDevice req.ev req.now)) := by
  refine ⟨rfl, fun r => ⟨trivial, fun key h => (nomatch h), fun _ h => ?_⟩⟩
  obtain rfl := (Prog.done.inj h)
  rfl

theorem goesOn_updateStatusByKey (key : ℕ) (status : AgentStatus) :
    req.GoesOn (Handling.updateStatusByKey key status req.now) := by
  refine ⟨trivial, fun r => ⟨trivial, fun key h => (nomatch h), fun _ h => ?_⟩⟩
  obtain rfl := (Prog.done.inj h)
  rfl

theorem goesOn_update (key : ℕ) (patch : Patch) : req.GoesOn (Handling.update key patch) := by
  refine ⟨trivial, fun r => ⟨trivial, fun key h => (nomatch h), fun _ h => ?_⟩⟩
  obtain rfl := (Prog.done.inj h)
  rfl

theorem goesOn_onConnect (hkind : req.ev.event = .connect) : req.GoesOn req.onConnect := by
  refine goesOn_call trivial (fun _ => goesOn_call trivial (fun _ => ⟨rfl, fun r => ?_⟩)
    (fun _ => rfl) fun _ _ h => nomatch h) (fun _ => rfl) fun _ _ h => nomatch h
  rcases r with e | _ | dev
  · exact ⟨trivial, fun key h => (nomatch h), fun _ h => (nomatch Prog.done.inj h)⟩
  · exact ⟨goesOn_create, fun key h => (nomatch h), fun _ h => (nomatch h)⟩
  · exact ⟨goesOn_updateStatusByKey _ _, fun key h => ⟨dev, rfl, Option.some.inj h,
      fun hkind' => absurd (hkind.symm.trans hkind') nofun⟩, fun _ h => (nomatch h)⟩

theorem goesOn_onDisconnect (hkind : req.ev.event = .disconnect) :
    req.GoesOn req.onDisconnect := by
  have hnot (p : Handling (Option Error)) (r : Bool) :
      req.ev.event = .connect → p = .done none → r = true :=
    fun hkind' => absurd (hkind.symm.trans hkind') nofun
  refine goesOn_call trivial (fun _ => ⟨rfl, fun r => ?_⟩) (fun _ => rfl) fun _ _ h => nomatch h
  rcases r with e | _ | dev
  · exact ⟨trivial, fun key h => (nomatch h), hnot _ _⟩
  · exact ⟨trivial, fun key h => (nomatch h), hnot _ _⟩
  · have hflip : req.GoesOn (if dev.2.agentStatus = .online then
          Handling.updateStatusByKey dev.1 .offline req.now else pure none) ∧
        ∀ key ∈ nextKey (if dev.2.agentStatus = .online then
          Handling.updateStatusByKey dev.1 .offline req.now else pure none),
          dev.1 = key ∧ dev.2.agentStatus = .online := by
      split_ifs with honline
      · exact ⟨goesOn_updateStatusByKey _ _, fun key h => ⟨Option.some.inj h, honline⟩⟩
      · exact ⟨trivial, fun key h => (nomatch h)⟩
    exact ⟨hflip.1, fun key h => ⟨dev, rfl, (hflip.2 key h).1, fun _ => (hflip.2 key h).2⟩, hnot _ _⟩

theorem goesOn_onHeartbeat (hkind : req.ev.event = .heartbeat) : req.GoesOn req.onHeartbeat := by
  have hnot (p : Handling (Option Error)) (r : Bool) :
      req.ev.event = .connect → p = .done none → r = true :=
    fun hkind' => absurd (hkind.symm.trans hkind') nofun
  refine goesOn_call trivial (fun _ => goesOn_call trivial (fun _ => ⟨rfl, fun r => ?_⟩)
    (fun _ => rfl) fun _ _ h => nomatch h) (fun _ => rfl) fun _ _ h => nomatch h
  rcases r with e | _ | dev
  · exact ⟨trivial, fun key h => (nomatch h), hnot _ _⟩
  · exact ⟨trivial, fun key h => (nomatch h), hnot _ _⟩
  · exact ⟨goesOn_update _ _, fun key h => ⟨dev, rfl, Option.some.inj h,
      fun hkind' => absurd (hkind.symm.trans hkind') nofun⟩, hnot _ _⟩

theorem goesOn_program (req : Request) : req.GoesOn req.program := by
  rw [Request.program]
  split_ifs
  · exact trivial
  · cases hkind : req.ev.event with
    | connect => exact goesOn_onConnect hkind
    | disconnect => exact goesOn_onDisconnect hkind
    | heartbeat => exact goesOn_onHeartbeat hkind
    | fbHeartbeat =>
      exact goesOn_call trivial (fun _ => trivial) (fun _ => rfl)
        fun _ hkind' => absurd (hkind.symm.trans hkind') nofun
    | other name => exact trivial

/-- No event begins with a write, and a connect does not begin with its end. -/
theorem nextKey_program (req : Request) : nextKey req.program = none := by
  rw [Request.program]
  split_ifs
  · rfl
  · cases req.ev.event <;> rfl

theorem program_ne_done (h : req.ev.event = .connect) : req.program ≠ .done none := by
  rw [Request.program, h]
  split_ifs
  · exact fun heq => (nomatch heq)
  · exact fun heq => (nomatch heq)

end GoesOn

/-! ### The documents -/

/-- The device is one of a tenant and an agent. -/
def isOwn (tenantID agentID : GoString) (d : ℕ × Device) : Bool :=
  d.2.tenantID = tenantID && d.2.agentID = agentID

/-- The devices of a tenant and an agent. -/
def devicesOf (devices : Repo) (tenantID agentID : GoString) : List (ℕ × Device) :=
  devices.docs.filter (isOwn tenantID agentID)

/-- A write that keeps the tenant and the agent. -/
def KeepsOwner (f : Device → Device) : Prop :=
  ∀ d, (f d).tenantID = d.tenantID ∧ (f d).agentID = d.agentID

/-- Every document is still there, with its tenant and its agent. -/
def Grows (devices devices' : Repo) : Prop :=
  ∀ d ∈ devices.docs, ∃ d' ∈ devices'.docs, d'.1 = d.1 ∧ d'.2.tenantID = d.2.tenantID ∧
    d'.2.agentID = d.2.agentID

section Documents

variable {devices devices' : Repo} {tenantID agentID : GoString}

theorem Grows.refl (devices : Repo) : Grows devices devices := fun d hd => ⟨d, hd, rfl, rfl, rfl⟩

theorem isOwn_iff {d : ℕ × Device} :
    isOwn tenantID agentID d = true ↔ d.2.tenantID = tenantID ∧ d.2.agentID = agentID := by
  simp [isOwn]

theorem mem_devicesOf {d : ℕ × Device} : d ∈ devicesOf devices tenantID agentID ↔
    d ∈ devices.docs ∧ d.2.tenantID = tenantID ∧ d.2.agentID = agentID := by
  rw [devicesOf, List.mem_filter, isOwn_iff]

/-- Where there is a device, there is one as the documents grow. -/
theorem Grows.devicesOf_ne_nil (h : Grows devices devices')
    (hne : devicesOf devices tenantID agentID ≠ []) : devicesOf devices' tenantID agentID ≠ [] := by
  obtain ⟨d, hd⟩ := List.exists_mem_of_ne_nil _ hne
  obtain ⟨hmem, htenant, hagent⟩ := mem_devicesOf.mp hd
  obtain ⟨d', hd', -, htenant', hagent'⟩ := h d hmem
  exact List.ne_nil_of_mem (mem_devicesOf.mpr ⟨hd', htenant'.trans htenant, hagent'.trans hagent⟩)

theorem devicesOf_create (dev : Device) (now : Time) :
    devicesOf (devices.create dev now) tenantID agentID = devicesOf devices tenantID agentID ++
      if dev.tenantID = tenantID ∧ dev.agentID = agentID then
        [(devices.next, { dev with createdAt := now, updatedAt := now })] else [] := by
  rw [devicesOf, devicesOf, Repo.create, Collection.insert, List.filter_append]
  congr 1
  split_ifs with h
  · exact List.filter_cons_of_pos (isOwn_iff.mpr h)
  · exact List.filter_cons_of_neg (mt isOwn_iff.mp h)

theorem grows_create (dev : Device) (now : Time) : Grows devices (devices.create dev now) :=
  fun d hd => ⟨d, List.mem_append_left _ hd, rfl, rfl, rfl⟩

variable {key : ℕ} {f : Device → Device}

theorem update_docs (h : Collection.update devices key f = some devices') :
    devices'.docs = devices.docs.map (Collection.write (fun d => d.1 = key) f) := by
  rw [Collection.update] at h
  split_ifs at h
  rw [← Option.some.inj h]
  rfl

theorem write_owner (hf : KeepsOwner f) (q : ℕ × Device → Bool) (d : ℕ × Device) :
    (Collection.write q f d).2.tenantID = d.2.tenantID ∧
      (Collection.write q f d).2.agentID = d.2.agentID := by
  rw [Collection.write]
  split_ifs
  · exact hf d.2
  · exact ⟨rfl, rfl⟩

theorem grows_update (hf : KeepsOwner f) (h : Collection.update devices key f = some devices') :
    Grows devices devices' := by
  intro d hd
  have hmem := List.mem_map_of_mem (f := Collection.write (fun d => d.1 = key) f) hd
  rw [← update_docs h] at hmem
  exact ⟨_, hmem, Collection.write_fst _ _ d, write_owner hf _ d⟩

/-- A write that keeps tenant and agent keeps how many devices they have. -/
theorem length_devicesOf_update (hf : KeepsOwner f)
    (h : Collection.update devices key f = some devices') :
    (devicesOf devices' tenantID agentID).length = (devicesOf devices tenantID agentID).length := by
  have hsame : isOwn tenantID agentID ∘ Collection.write (fun d => d.1 = key) f =
      isOwn tenantID agentID := by
    funext d
    rw [Function.comp_apply, isOwn, (write_owner hf _ d).1, (write_owner hf _ d).2]
    rfl
  rw [devicesOf, update_docs h, List.filter_map, List.length_map, hsame, devicesOf]

/-- A write to a device of a tenant leaves those of others. -/
theorem mem_update_iff_of_ne (hf : KeepsOwner f)
    (h : Collection.update devices key f = some devices') {own : ℕ × Device}
    (hown : own ∈ devices.docs) (hkey : own.1 = key) {d : ℕ × Device}
    (hd : d.2.tenantID ≠ own.2.tenantID) : d ∈ devices'.docs ↔ d ∈ devices.docs := by
  rw [update_docs h, List.mem_map]
  have hne : ∀ e ∈ devices.docs, e.2.tenantID = d.2.tenantID →
      Collection.write (fun d => d.1 = key) f e = e := by
    intro e he htenant
    rw [Collection.write, if_neg]
    intro hkey'
    rw [Collection.eq_of_fst_eq he hown ((of_decide_eq_true hkey').trans hkey.symm)] at htenant
    exact hd htenant.symm
  constructor
  · rintro ⟨e, he, rfl⟩
    rwa [hne e he (write_owner hf _ e).1.symm]
  · exact fun hmem => ⟨d, hmem, hne d hmem rfl⟩

end Documents

/-! ### One call -/

theorem written_cases {ans : Answers} {st st' : Stores} {devices : Option Repo} {r : Option Error}
    (h : st.written ans devices = (some r, st')) :
    st'.devices = st.devices ∧ r ≠ none ∨
      r = none ∧ ans.write = true ∧ devices = some st'.devices := by
  rw [Stores.written] at h
  obtain ⟨hr, rfl⟩ := Prod.mk.inj h
  obtain rfl := Option.some.inj hr
  rw [Stores.write.eq_def]
  cases devices with
  | none => exact .inl ⟨rfl, Option.some_ne_none _⟩
  | some devices =>
    simp only
    split_ifs with hwrite
    · exact .inr ⟨rfl, hwrite, rfl⟩
    · exact .inl ⟨rfl, Option.some_ne_none _⟩

/-- What a call does to the documents: nothing, or it creates one, or it writes the one of a key. -/
theorem answer_cases {ans : Answers} {i : Call} {st st' : Stores} {r : i.Reply}
    (h : answer ans i st = (some r, st')) :
    (st'.devices = st.devices ∧ i.wrote r = false ∧ ∀ dev ∈ i.found r, ∃ agentID,
        i = .find agentID ∧ ans.find = .answered ∧ st.devices.findByAgentID agentID = some dev) ∨
      (∃ dev, i = .create dev ∧ ans.write = true ∧ st'.devices = st.devices.create dev st.clock) ∨
      ∃ key f, i.key = some key ∧ KeepsOwner f ∧
        Collection.update st.devices key f = some st'.devices := by
  cases i with
  | touch ev =>
    obtain ⟨-, rfl⟩ := Prod.mk.inj h
    exact .inl ⟨rfl, rfl, fun _ hdev => absurd hdev (Option.not_mem_none _)⟩
  | renewFB ev =>
    obtain ⟨-, rfl⟩ := Prod.mk.inj h
    exact .inl ⟨rfl, rfl, fun _ hdev => absurd hdev (Option.not_mem_none _)⟩
  | remove ev =>
    obtain ⟨-, rfl⟩ := Prod.mk.inj h
    exact .inl ⟨rfl, rfl, fun _ hdev => absurd hdev (Option.not_mem_none _)⟩
  | find agentID =>
    obtain ⟨hr, rfl⟩ := Prod.mk.inj h
    obtain rfl := Option.some.inj hr
    refine .inl ⟨rfl, rfl, fun dev hdev => ⟨agentID, rfl, ?_⟩⟩
    rw [find] at hdev
    cases hfind : ans.find with
    | answered => exact ⟨rfl, by simpa [hfind, Call.found] using hdev⟩
    | queryError => simp [hfind, Call.found] at hdev
    | readError => simp [hfind, Call.found] at hdev
  | create dev =>
    obtain ⟨hsame, hr⟩ | ⟨-, hwrite, heq⟩ := written_cases h
    · obtain ⟨e, rfl⟩ := Option.ne_none_iff_exists'.mp hr
      exact .inl ⟨hsame, rfl, fun _ hdev => absurd hdev (Option.not_mem_none _)⟩
    · exact .inr (.inl ⟨dev, rfl, hwrite, (Option.some.inj heq).symm⟩)
  | updateStatusByKey key status now =>
    obtain ⟨hsame, hr⟩ | ⟨-, -, heq⟩ := written_cases h
    · obtain ⟨e, rfl⟩ := Option.ne_none_iff_exists'.mp hr
      exact .inl ⟨hsame, rfl, fun _ hdev => absurd hdev (Option.not_mem_none _)⟩
    · exact .inr (.inr ⟨key, Patch.apply _, rfl, fun _ => ⟨rfl, rfl⟩, heq⟩)
  | update key patch =>
    obtain ⟨hsame, hr⟩ | ⟨-, -, heq⟩ := written_cases h
    · obtain ⟨e, rfl⟩ := Option.ne_none_iff_exists'.mp hr
      exact .inl ⟨hsame, rfl, fun _ hdev => absurd hdev (Option.not_mem_none _)⟩
    · exact .inr (.inr ⟨key, Patch.apply _, rfl, fun _ => ⟨rfl, rfl⟩, heq⟩)

/-- Every call returns. -/
theorem exists_answer (ans : Answers) (i : Call) (st : Stores) :
    ∃ r st', answer ans i st = (some r, st') := by
  cases i with
  | _ => exact ⟨_, _, rfl⟩

theorem found_of_key {i : Call} {key : ℕ} (h : i.key = some key) (r : i.Reply) : i.found r = none := by
  cases i with
  | find agentID => exact nomatch h
  | _ => rfl

/-! ### Runs -/

/-- Events in progress. -/
abbrev Pool := Prog.Pool Call.Reply Request Stores (Option Error)

/-- What happens: an event arrives, or makes its next call. -/
abbrev Occurrence := Prog.Pool.Event Request Turn

/-- One occurrence. -/
abbrev handle : Pool → Occurrence → Option Pool := Prog.Pool.step Request.program serve

/-- A search finds no device of another tenant, apart from one that a disconnect leaves alone, and a
device that is created is still missing. -/
def Apart (st : Stores) (req : Request) (w : Turn) : Call → Prop
  | .find agentID => w.ans.find = .answered → ∀ dev ∈ st.devices.findByAgentID agentID,
      (req.ev.event = .disconnect → dev.2.agentStatus = .online) → dev.2.tenantID = req.ev.tenant
  | .create dev => w.ans.write = true → devicesOf st.devices dev.tenantID dev.agentID = []
  | _ => True

instance decidableApart (st : Stores) (req : Request) (w : Turn) : (i : Call) →
    Decidable (Apart st req w i)
  | .find agentID => inferInstanceAs (Decidable (_ → ∀ dev ∈ st.devices.findByAgentID agentID, _ → _))
  | .create dev => inferInstanceAs (Decidable (_ → devicesOf st.devices dev.tenantID dev.agentID = []))
  | .touch _ | .renewFB _ | .remove _ | .updateStatusByKey .. | .update .. => isTrue trivial

/-- A connect of an agent has come to its end without an error. -/
def HasConnected (s : Pool) (tenantID agentID : GoString) : Prop :=
  ∃ id req, s.tasks id = some (req, .done none) ∧ req.ev.event = .connect ∧
    req.ev.tenant = tenantID ∧ req.ev.agentID = agentID

/-- Each tenant has one device for each agent that has connected, and never two for one. -/
def Registered (s : Pool) : Prop :=
  ∀ tenantID agentID, (devicesOf s.store.devices tenantID agentID).length ≤ 1 ∧
    (HasConnected s tenantID agentID → (devicesOf s.store.devices tenantID agentID).length = 1)

/-- An occurrence leaves the devices of all tenants but that of its event. -/
def LeavesOthers (s s' : Pool) : Occurrence → Prop
  | .start _ _ => s'.store = s.store
  | .call id _ => ∀ req p, s.tasks id = some (req, p) → ∀ d : ℕ × Device,
      d.2.tenantID ≠ req.ev.tenant → (d ∈ s'.store.devices.docs ↔ d ∈ s.store.devices.docs)

/-- What is left of an event, for the documents there are. -/
structure Task (devices : Repo) (req : Request) (p : Handling (Option Error)) : Prop where
  goesOn : req.GoesOn p
  /-- The device that is written next is one of the tenant and the agent. -/
  owns : ∀ key ∈ nextKey p, ∃ d ∈ devicesOf devices req.ev.tenant req.ev.agentID, d.1 = key
  hasDevice : req.ev.event = .connect → p = .done none →
    devicesOf devices req.ev.tenant req.ev.agentID ≠ []

theorem Task.grow {devices devices' : Repo} {req : Request} {p : Handling (Option Error)}
    (h : Task devices req p) (hgrows : Grows devices devices') : Task devices' req p where
  goesOn := h.goesOn
  owns key hkey := by
    obtain ⟨d, hd, rfl⟩ := h.owns key hkey
    obtain ⟨hmem, htenant, hagent⟩ := mem_devicesOf.mp hd
    obtain ⟨d', hd', hkey', htenant', hagent'⟩ := hgrows d hmem
    exact ⟨d', mem_devicesOf.mpr ⟨hd', htenant'.trans htenant, hagent'.trans hagent⟩, hkey'⟩
  hasDevice hkind hdone := hgrows.devicesOf_ne_nil (h.hasDevice hkind hdone)

section Step

variable {st st' : Stores} {req : Request} {w : Turn} {i : Call} {r : i.Reply}
  {next : i.Reply → Handling (Option Error)}

/-- What one call of an event does, when it is apart from the others. -/
structure CallKeeps (st st' : Stores) (req : Request) (p : Handling (Option Error)) : Prop where
  atMostOne : (∀ tenantID agentID, (devicesOf st.devices tenantID agentID).length ≤ 1) →
    ∀ tenantID agentID, (devicesOf st'.devices tenantID agentID).length ≤ 1
  grows : Grows st.devices st'.devices
  others : ∀ d : ℕ × Device, d.2.tenantID ≠ req.ev.tenant →
    (d ∈ st'.devices.docs ↔ d ∈ st.devices.docs)
  task : Task st'.devices req p

theorem callKeeps (hapart : Apart st req w i) (htask : Task st.devices req (.call i next))
    (h : serve w i st = (some r, st')) : CallKeeps st st' req (next r) := by
  obtain ⟨hasks, hgoesOn⟩ := htask.goesOn
  obtain ⟨hnext, hkey, hend⟩ := hgoesOn r
  obtain ⟨hsame, hwrote, hfound⟩ | ⟨dev, rfl, hwrite, hcreate⟩ | ⟨key, f, hwritten, hf, hupdate⟩ :=
    answer_cases h
  · -- nothing is written
    replace hsame : st'.devices = st.devices := hsame
    refine ⟨fun hone => hsame ▸ hone, hsame ▸ Grows.refl _, fun d _ => by rw [hsame], hnext, ?_, ?_⟩
    · intro key hkey'
      obtain ⟨dev, hdev, rfl, honline⟩ := hkey key hkey'
      obtain ⟨agentID, rfl, hanswered, hfind⟩ := hfound dev hdev
      obtain rfl : agentID = req.ev.agentID := hasks
      refine ⟨dev, ?_, rfl⟩
      rw [hsame]
      exact mem_devicesOf.mpr ⟨Collection.mem_of_first hfind,
        hapart hanswered dev hfind honline, Repo.agentID_of_find hfind⟩
    · intro hkind hdone
      rw [hend hkind hdone] at hwrote
      cases hwrote
  · -- a device is created that was missing
    obtain rfl : dev = newDevice req.ev req.now := hasks
    replace hcreate : st'.devices = st.devices.create (newDevice req.ev req.now) (st.wait w.wait).clock :=
      hcreate
    have hmissing : devicesOf st.devices req.ev.tenant req.ev.agentID = [] := hapart hwrite
    refine ⟨fun hone tenantID agentID => ?_, hcreate ▸ grows_create _ _, fun d hd => ?_, hnext, ?_, ?_⟩
    · rw [hcreate, devicesOf_create]
      split_ifs with hown
      · obtain ⟨rfl, rfl⟩ := hown
        rw [newDevice, hmissing]
        exact Nat.le_refl 1
      · rw [List.append_nil]
        exact hone tenantID agentID
    · rw [hcreate, Repo.create, Collection.insert, List.mem_append, or_iff_left]
      intro hnew
      rw [List.mem_singleton.mp hnew] at hd
      exact hd rfl
    · intro key hkey'
      obtain ⟨dev, hdev, -⟩ := hkey key hkey'
      exact absurd hdev (Option.not_mem_none dev)
    · intro _ _
      rw [hcreate, devicesOf_create, if_pos ⟨rfl, rfl⟩]
      exact List.append_ne_nil_of_right_ne_nil _ (List.cons_ne_nil _ _)
  · -- the device of the event is written
    obtain ⟨own, hown, rfl⟩ := htask.owns key hwritten
    obtain ⟨hmem, htenant, hagent⟩ := mem_devicesOf.mp hown
    replace hupdate : Collection.update st.devices own.1 f = some st'.devices := hupdate
    refine ⟨fun hone tenantID agentID => ?_, grows_update hf hupdate, fun d hd => ?_, hnext, ?_, ?_⟩
    · rw [length_devicesOf_update hf hupdate]
      exact hone tenantID agentID
    · exact mem_update_iff_of_ne hf hupdate hmem rfl (htenant ▸ hd)
    · intro key hkey'
      obtain ⟨dev, hdev, -⟩ := hkey key hkey'
      rw [found_of_key hwritten] at hdev
      exact absurd hdev (Option.not_mem_none dev)
    · intro _ _
      exact (grows_update hf hupdate).devicesOf_ne_nil (List.ne_nil_of_mem hown)

end Step

/-- What holds while events are apart. -/
structure Kept (s : Pool) : Prop where
  atMostOne : ∀ tenantID agentID, (devicesOf s.store.devices tenantID agentID).length ≤ 1
  task : ∀ id req p, s.tasks id = some (req, p) → Task s.store.devices req p

theorem Kept.registered {s : Pool} (h : Kept s) : Registered s := by
  refine fun tenantID agentID => ⟨h.atMostOne tenantID agentID, ?_⟩
  rintro ⟨id, req, htask, hkind, rfl, rfl⟩
  have hne := (h.task id req _ htask).hasDevice hkind rfl
  exact Nat.le_antisymm (h.atMostOne _ _) (List.length_pos_iff.mpr hne)

/-- **One occurrence that is apart from the others.** -/
theorem Kept.step {s s' : Pool} {ev : Occurrence} (h : Kept s) (hapart : s.Meets Apart ev)
    (hstep : handle s ev = some s') : Kept s' ∧ LeavesOthers s s' ev := by
  obtain ⟨id, req, rfl, -, rfl⟩ | ⟨id, w, req, i, next, rfl, htask, rfl⟩ :=
    Prog.Pool.step_cases hstep
  · refine ⟨⟨h.atMostOne, fun id' req' p' hp' => ?_⟩, rfl⟩
    rw [Prog.Pool.goOn_tasks] at hp'
    split_ifs at hp'
    · obtain ⟨rfl, rfl⟩ := Prod.mk.inj (Option.some.inj hp')
      refine ⟨goesOn_program req, fun key hkey => ?_, fun hkind hdone => ?_⟩
      · rw [nextKey_program] at hkey
        exact absurd hkey nofun
      · exact absurd hdone (program_ne_done hkind)
    · exact h.task id' req' p' hp'
  · obtain ⟨r, st', hserve⟩ := exists_answer w.ans i (s.store.wait w.wait)
    replace hserve : serve w i s.store = (some r, st') := hserve
    have hcall := callKeeps (hapart req i next htask) (h.task id req _ htask) hserve
    rw [hserve]
    refine ⟨⟨hcall.atMostOne h.atMostOne, fun id' req' p' hp' => ?_⟩, fun req' p' hp' d hd => ?_⟩
    · rw [Prog.Pool.goOn_tasks] at hp'
      split_ifs at hp'
      · obtain ⟨rfl, rfl⟩ := Prod.mk.inj (Option.some.inj hp')
        exact hcall.task
      · exact (h.task id' req' p' hp').grow hcall.grows
    · obtain ⟨rfl, -⟩ := Prod.mk.inj (Option.some.inj (htask.symm.trans hp'))
      exact hcall.others d hd

/-- **Each tenant has one device for each agent that has connected, and the events of others leave it
alone**, in every run in which searches find no device of another tenant, and devices are still missing
when they are created. -/
theorem registered_of_apart {store : Stores}
    (hinit : ∀ tenantID agentID, (devicesOf store.devices tenantID agentID).length ≤ 1)
    {hist : Run.History Pool Occurrence} {s : Pool}
    (h : Run.Reach handle (fun _ s ev => s.Meets Apart ev) (.idle store) hist s) :
    Registered s ∧ ∀ ev s', s.Meets Apart ev → handle s ev = some s' → LeavesOthers s s' ev := by
  have hkept : Kept s := by
    refine @Run.Reach.invariant _ _ _ _ _ (fun _ s => Kept s)
      ⟨hinit, fun id req p hp => absurd hp (by simp [Prog.Pool.idle])⟩ ?_ _ _ h
    rintro hist s s' ev hkept hapart hstep
    exact (hkept.step hapart hstep).1
  exact ⟨hkept.registered, fun ev s' hapart hstep => (hkept.step hapart hstep).2⟩

/-- The connect of an agent of a tenant, as a gateway reports it. -/
def connect (tenantID fbID : String) : Request where
  ev := { agentID := str "agent-1", event := .connect, tenantID := str tenantID,
          fbInstanceID := str fbID }
  arrival := 0

/-- Stores without devices. -/
def Stores.fresh : Stores := ⟨.empty 0 Redis.inMemory, .empty⟩

theorem fresh_atMostOne (tenantID agentID : GoString) :
    (devicesOf Stores.fresh.devices tenantID agentID).length ≤ 1 := Nat.zero_le 1

/-- An event that nothing interrupts. -/
def through (id : ℕ) (req : Request) : List Occurrence :=
  [.start id req, .call id {}, .call id {}, .call id {}, .call id {}]

/-- An agent connects twice, through two gateways, one after the other. -/
theorem registered_apart : ∃ s : Pool,
    (devicesOf s.store.devices (str "t-1") (str "agent-1")).length = 1 ∧ Registered s := by
  have hreplay : ((Run.replay handle [] (.idle Stores.fresh)
      (through 0 (connect "t-1" "fb-1") ++ through 1 (connect "t-1" "fb-2"))).map fun r =>
        decide ((∀ e ∈ r.1, e.1.Meets Apart e.2) ∧
          (devicesOf r.2.store.devices (str "t-1") (str "agent-1")).length = 1)) = some true := by
    decide +kernel
  obtain ⟨⟨hist, s⟩, hrun, hr⟩ := Option.map_eq_some_iff.mp hreplay
  obtain ⟨hmeets, hone⟩ := of_decide_eq_true hr
  have hreach := (Run.Reach.start.replay hrun).restrict fun e he _ => hmeets e he
  exact ⟨s, hone, (registered_of_apart fresh_atMostOne hreach).1⟩

/-- **Two gateways report an agent at the same time**, and it has two devices. -/
theorem registered_twice : ∃ hist s, Run.Reach handle Run.Any (.idle Stores.fresh) hist s ∧
    ¬Registered s := by
  have hreplay : ((Run.replay handle [] (.idle Stores.fresh)
      [.start 0 (connect "t-1" "fb-1"), .start 1 (connect "t-1" "fb-2"), .call 0 {}, .call 0 {},
        .call 1 {}, .call 1 {}, .call 0 {}, .call 1 {}, .call 0 {}, .call 1 {}]).map fun r =>
        (devicesOf r.2.store.devices (str "t-1") (str "agent-1")).length) = some 2 := by
    decide +kernel
  obtain ⟨⟨hist, s⟩, hrun, htwo⟩ := Option.map_eq_some_iff.mp hreplay
  refine ⟨hist, s, Run.Reach.start.replay hrun, fun h => ?_⟩
  have hle := (h (str "t-1") (str "agent-1")).1
  rw [htwo] at hle
  exact absurd hle (by decide)

end Devices

end Xsiam
