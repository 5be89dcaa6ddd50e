import Xsiam.Devices.Connections

/-!
# The times of events and what they overwrite

An event carries the time it is of, and is applied when it arrives. `HandleAgentEvent` compares that
time with nothing: a connect, a heartbeat and the disconnect of a device that is online write it into
`last_heartbeat`, and the first and the last of them a status too, whatever the document has
(`Xsiam.Devices.devices_handleAgentEvent`).

So the data of a device go backwards with the first event that finds something newer, and with no other:
in a run, neither a heartbeat nor a status is overwritten by what is older exactly if the events that
write the heartbeat of a document arrive in the order of their times, after the one it has at the start,
and so do those that set its status (`Xsiam.Devices.neverBackwards_iff`). So it is where the events of
each agent arrive in the order of their times, and none is older than what is stored at the start.
-/

namespace Xsiam

namespace Devices

open Go Presence Run

/-! ### What an event writes -/

/-- What becomes of the documents. -/
inductive Change where
  | nothing
  | create (dev : Device)
  | patch (key : ℕ) (p : Patch)

/-- What an event does to the documents. -/
def changeOf (ans : Answers) (st : Stores) (ev : AgentEvent) : Change :=
  let now := ev.now st
  if ans.write = false ∨ ev.agentID = [] then .nothing
  else
    match ev.event, find ans st.devices ev.agentID with
    | .connect, .ok none => .create (newDevice ev now)
    | .connect, .ok (some dev) =>
      .patch dev.1 { agentStatus := some .online, lastHeartbeat := some now, updatedAt := some now }
    | .disconnect, .ok (some dev) =>
      if dev.2.agentStatus = .online then
        .patch dev.1 { agentStatus := some .offline, lastHeartbeat := some now, updatedAt := some now }
      else .nothing
    | .heartbeat, .ok (some dev) =>
      .patch dev.1 { lastHeartbeat := some now, updatedAt := some st.clock }
    | _, _ => .nothing

/-- The documents after a change. -/
def Change.apply (now : Time) (devices : Repo) : Change → Repo
  | .nothing => devices
  | .create dev => devices.create dev now
  | .patch key p => devices.updateWhere (fun d => d.1 = key) p.apply

/-- The document whose status a change sets, by its key. -/
def Change.statusKey (devices : Repo) : Change → Option ℕ
  | .nothing => none
  | .create _ => some devices.next
  | .patch key p => if p.agentStatus.isSome then some key else none

/-- The heartbeat that the document of a key has. -/
def Stores.lastHeartbeat (st : Stores) (key : ℕ) : Option Time :=
  (st.devices.get key).bind (·.lastHeartbeat)

/-- The status that the document of a key has. -/
def Stores.statusAt (st : Stores) (key : ℕ) : Option AgentStatus :=
  (st.devices.get key).map (·.agentStatus)

section Write

variable {ans : Answers} {st : Stores} {ev : AgentEvent}

/-- The document that answers a query can be written. -/
theorem update_of_find {devices : Repo} {agentID : GoString} {dev : ℕ × Device}
    (h : devices.findByAgentID agentID = some dev) (p : Patch) :
    Collection.update devices dev.1 p.apply =
      some (devices.updateWhere (fun d => d.1 = dev.1) p.apply) := by
  have hany : devices.docs.any (fun d => d.1 = dev.1) = true :=
    List.any_eq_true.mpr ⟨dev, Collection.mem_of_first h, decide_eq_true rfl⟩
  rw [Collection.update, if_pos hany]

/-- The document that answers a query stands under its key. -/
theorem get_of_find {devices : Repo} {agentID : GoString} {dev : ℕ × Device}
    (h : devices.findByAgentID agentID = some dev) : devices.get dev.1 = some dev.2 := by
  have hmem := Collection.mem_of_first h
  cases hfind : devices.docs.find? fun d => d.1 = dev.1 with
  | none => exact absurd (decide_eq_true rfl) (List.find?_eq_none.mp hfind dev hmem)
  | some d =>
    have hmeets := List.find?_some hfind
    have hkey : d.1 = dev.1 := of_decide_eq_true hmeets
    rw [Collection.get, hfind, Option.map_some,
      Collection.eq_of_fst_eq (List.mem_of_find?_eq_some hfind) hmem hkey]

/-- The clock is that of the registry, and being seen does not move it. -/
theorem clock_seen : Stores.clock { st with reg := seen ans st.reg ev } = st.clock := by
  rw [Stores.clock, now_seen, Stores.clock]

/-- A write that fails, or writes. -/
theorem devices_write (devices : Repo) : (st.write ans (some devices)).1.devices =
    if ans.write = false then st.devices else devices := by
  rw [Stores.write]
  cases ans.write <;> rfl

/-- **What an event does to the documents.** -/
theorem devices_handleAgentEvent : (handleAgentEvent ans st ev).1.devices =
    (changeOf ans st ev).apply st.clock st.devices := by
  rw [handleAgentEvent, changeOf]
  by_cases hid : ev.agentID = []
  · -- without an agent an event is an error, or the lease of an instance
    rw [if_pos (Or.inr hid)]
    split_ifs with hkind
    · rfl
    · rw [not_and_or, not_not] at hkind
      obtain hkind | hkind := hkind
      · rw [hkind]
        rfl
      · exact absurd hid hkind
  · rw [if_neg fun h => hid h.2]
    cases hkind : ev.event with
    | fbHeartbeat => split_ifs <;> rfl
    | other name => split_ifs <;> rfl
    | connect =>
      simp only [onConnect, hid, or_false]
      rcases hfind : find ans st.devices ev.agentID with e | _ | dev
      · split_ifs <;> rfl
      · dsimp only
        rw [devices_write, clock_seen]
        split_ifs <;> rfl
      · dsimp only
        rw [Repo.updateStatusByKey, update_of_find (find_eq_some hfind), devices_write]
        split_ifs <;> rfl
    | disconnect =>
      simp only [onDisconnect, hid, or_false]
      rcases hfind : find ans st.devices ev.agentID with e | _ | dev
      · split_ifs <;> rfl
      · split_ifs <;> rfl
      · dsimp only
        by_cases honline : dev.2.agentStatus = .online
        · -- only a device that is online is marked as offline
          rw [if_pos honline, if_pos honline, Repo.updateStatusByKey,
            update_of_find (find_eq_some hfind), devices_write]
          split_ifs <;> rfl
        · rw [if_neg honline, if_neg honline]
          split_ifs <;> rfl
    | heartbeat =>
      simp only [onHeartbeat, hid, or_false]
      rcases hfind : find ans st.devices ev.agentID with e | _ | dev
      · split_ifs <;> rfl
      · split_ifs <;> rfl
      · dsimp only
        rw [Repo.update, clock_seen, update_of_find (find_eq_some hfind), devices_write]
        split_ifs <;> rfl

/-- A document that an event patches is there, and gets the time of the event for its heartbeat. -/
theorem changeOf_eq_patch {key : ℕ} {p : Patch} (h : changeOf ans st ev = .patch key p) :
    (∃ dev, st.devices.findByAgentID ev.agentID = some (key, dev)) ∧
      p.lastHeartbeat = some (ev.now st) := by
  rw [changeOf] at h
  split_ifs at h
  split at h
  · exact nomatch h
  · next dev _ hfind =>
    cases h
    exact ⟨⟨dev.2, find_eq_some hfind⟩, rfl⟩
  · next dev _ hfind =>
    split_ifs at h
    cases h
    exact ⟨⟨dev.2, find_eq_some hfind⟩, rfl⟩
  · next dev _ hfind =>
    cases h
    exact ⟨⟨dev.2, find_eq_some hfind⟩, rfl⟩
  · exact nomatch h

/-- A device that an event creates has had no heartbeat. -/
theorem changeOf_eq_create {dev : Device} (h : changeOf ans st ev = .create dev) :
    dev = newDevice ev (ev.now st) := by
  rw [changeOf] at h
  split_ifs at h
  split at h
  · cases h
    rfl
  · exact nomatch h
  · split_ifs at h
  · exact nomatch h
  · exact nomatch h

/-- **What an event does to the heartbeats.** -/
theorem lastHeartbeat_handleAgentEvent (k : ℕ) :
    (handleAgentEvent ans st ev).1.lastHeartbeat k =
      match changeOf ans st ev with
      | .patch key _ => if k = key then some (ev.now st) else st.lastHeartbeat k
      | _ => st.lastHeartbeat k := by
  rw [Stores.lastHeartbeat, devices_handleAgentEvent]
  cases hchange : changeOf ans st ev with
  | nothing => rfl
  | create dev =>
    obtain rfl := changeOf_eq_create hchange
    rw [Change.apply, Repo.create, Collection.get_insert]
    split_ifs with hk
    · -- nothing stood under the key of the new device
      rw [hk, Stores.lastHeartbeat, Collection.get_next]
      rfl
    · rfl
  | patch key p =>
    obtain ⟨⟨dev, hfind⟩, hheartbeat⟩ := changeOf_eq_patch hchange
    dsimp only [Change.apply]
    rw [Collection.get_updateWhere]
    split_ifs with hk
    · rw [hk, get_of_find hfind, Option.map_some, Option.bind_some, Patch.apply, hheartbeat,
        Option.some_or]
    · rfl

/-- **A status that is not set stays.** -/
theorem statusAt_handleAgentEvent {k : ℕ}
    (hkey : (changeOf ans st ev).statusKey st.devices ≠ some k) :
    (handleAgentEvent ans st ev).1.statusAt k = st.statusAt k := by
  rw [Stores.statusAt, devices_handleAgentEvent]
  cases hchange : changeOf ans st ev with
  | nothing => rfl
  | create dev =>
    rw [hchange] at hkey
    have hk : k ≠ st.devices.next := fun hk => hkey (congrArg some hk.symm)
    rw [Change.apply, Repo.create, Collection.get_insert, if_neg hk, Stores.statusAt]
  | patch key p =>
    rw [hchange, Change.statusKey] at hkey
    dsimp only [Change.apply]
    rw [Collection.get_updateWhere, Stores.statusAt]
    split_ifs with hk
    · have hnone : p.agentStatus = none := by
        rw [← Option.not_isSome_iff_eq_none]
        exact fun hsome => hkey (by rw [if_pos hsome, hk])
      rw [Option.map_map]
      refine Option.map_congr fun d _ => ?_
      rw [Function.comp_apply, Patch.apply, hnone, Option.getD_none]
    · rfl

end Write

/-! ### Runs that do not go backwards -/

/-- A time that is there stays, or is followed by one that is not earlier. -/
def NotEarlier (before after : Option Time) : Prop := ∀ t ∈ before, ∃ t' ∈ after, t ≤ t'

/-- The time that an arrival gives to the status of a document, where it sets it. -/
def Arrival.statusTime (st : Stores) (key : ℕ) : Arrival → Option Time
  | .deliver d =>
    if (changeOf d.ans st d.ev).statusKey st.devices = some key then some (d.ev.now st) else none
  | .wait _ => none

/-- The time that an arrival gives to the heartbeat of a document, where it writes it. -/
def Arrival.heartbeatTime (st : Stores) (key : ℕ) : Arrival → Option Time
  | .deliver d =>
    match changeOf d.ans st d.ev with
    | .patch key' _ => if key = key' then some (d.ev.now st) else none
    | _ => none
  | .wait _ => none

/-- The times of the events that wrote the heartbeat of a document, the last one first. -/
def heartbeatTimes (hist : History Stores Arrival) (key : ℕ) : List Time :=
  hist.filterMap fun p => p.2.heartbeatTime p.1 key

/-- The times of the events that set the status of a document, the last one first. -/
def statusTimes (hist : History Stores Arrival) (key : ℕ) : List Time :=
  hist.filterMap fun p => p.2.statusTime p.1 key

/-- The time of the event that set the status of a document last. -/
def statusTime (hist : History Stores Arrival) (key : ℕ) : Option Time :=
  hist.findSome? fun p => p.2.statusTime p.1 key

/-- An arrival does not set a status that a newer event has set. -/
def StatusKept (past : History Stores Arrival) (st : Stores) (arr : Arrival) : Prop :=
  ∀ key t t', statusTime past key = some t → arr.statusTime st key = some t' → ¬t' < t

/-- No heartbeat of a run is followed by an earlier one, and no status is overwritten by an event
older than the one that set it. -/
def NeverBackwards : History Stores Arrival → Stores → Prop
  | [], _ => True
  | (s, arr) :: past, st =>
    ((∀ key, NotEarlier (s.lastHeartbeat key) (st.lastHeartbeat key)) ∧ StatusKept past s arr) ∧
      NeverBackwards past s

/-- **What writes a document arrives in the order of the times**: the events that write its heartbeat,
after the heartbeat at the start, and those that set its status. -/
structure WrittenInOrder (init : Stores) (hist : History Stores Arrival) : Prop where
  heartbeat : ∀ key,
    (heartbeatTimes hist key ++ (init.lastHeartbeat key).toList).Pairwise (· ≥ ·)
  status : ∀ key, (statusTimes hist key).Pairwise (· ≥ ·)

/-- An event that writes a document is not older than the heartbeat the document has, and if it sets
the status, not older than the event that set it last. -/
def Timely (past : History Stores Arrival) (st : Stores) (arr : Arrival) : Prop :=
  (∀ key, ∀ t' ∈ arr.heartbeatTime st key, ∀ t ∈ st.lastHeartbeat key, t ≤ t') ∧
    ∀ key, ∀ t' ∈ arr.statusTime st key, ∀ t ∈ statusTime past key, t ≤ t'

section Runs

variable {past hist : History Stores Arrival} {st st' : Stores} {arr : Arrival}

theorem NotEarlier.refl (o : Option Time) : NotEarlier o o := fun t ht => ⟨t, ht, le_rfl⟩

/-- **What an arrival does to the heartbeats.** -/
theorem lastHeartbeat_arrive (hstep : arrive st arr = some st') (key : ℕ) :
    st'.lastHeartbeat key = (arr.heartbeatTime st key).or (st.lastHeartbeat key) := by
  cases arr with
  | wait ms =>
    obtain rfl := Option.some.inj hstep
    rfl
  | deliver d =>
    obtain rfl := Option.some.inj hstep
    rw [lastHeartbeat_handleAgentEvent, Arrival.heartbeatTime]
    split
    · split_ifs <;> rfl
    · rfl

theorem heartbeatTimes_cons (key : ℕ) : heartbeatTimes ((st, arr) :: past) key =
    (arr.heartbeatTime st key).toList ++ heartbeatTimes past key := by
  rw [heartbeatTimes, List.filterMap_cons]
  cases arr.heartbeatTime st key <;> rfl

theorem statusTimes_cons (key : ℕ) : statusTimes ((st, arr) :: past) key =
    (arr.statusTime st key).toList ++ statusTimes past key := by
  rw [statusTimes, List.filterMap_cons]
  cases arr.statusTime st key <;> rfl

/-- The heartbeat of a document is what was written last, or what it had at the start. -/
theorem lastHeartbeat_eq {init : Stores} (h : Reach arrive Any init hist st) (key : ℕ) :
    st.lastHeartbeat key = (heartbeatTimes hist key ++ (init.lastHeartbeat key).toList).head? := by
  induction h with
  | start =>
    cases hinit : init.lastHeartbeat key with
    | none => rfl
    | some t => rfl
  | @next hist s s' arr _ _ hstep ih =>
    rw [lastHeartbeat_arrive hstep, ih, heartbeatTimes_cons]
    cases arr.heartbeatTime s key with
    | none => rfl
    | some t => rfl

theorem statusTime_eq (hist : History Stores Arrival) (key : ℕ) :
    statusTime hist key = (statusTimes hist key).head? := by
  induction hist with
  | nil => rfl
  | cons p hist ih =>
    rw [statusTime, statusTimes, List.findSome?_cons, List.filterMap_cons]
    cases hset : p.2.statusTime p.1 key with
    | none => exact ih
    | some t => rfl

/-- One more time, where there is one: what comes last is the newest. -/
theorem pairwise_toList_append {o : Option Time} {ts : List Time} :
    (o.toList ++ ts).Pairwise (· ≥ ·) ↔
      (∀ t' ∈ o, ∀ t ∈ ts.head?, t ≤ t') ∧ ts.Pairwise (· ≥ ·) := by
  cases o with
  | none => simp
  | some t' =>
    rw [Option.toList_some, List.singleton_append, ← List.isChain_iff_pairwise, List.isChain_cons,
      List.isChain_iff_pairwise]
    simp

/-- **A step writes in order exactly if its event is timely.** -/
theorem writtenInOrder_cons {init : Stores} (h : Reach arrive Any init past st) :
    WrittenInOrder init ((st, arr) :: past) ↔ Timely past st arr ∧ WrittenInOrder init past := by
  have hheartbeat (key : ℕ) :
      (heartbeatTimes ((st, arr) :: past) key ++ (init.lastHeartbeat key).toList).Pairwise (· ≥ ·) ↔
        (∀ t' ∈ arr.heartbeatTime st key, ∀ t ∈ st.lastHeartbeat key, t ≤ t') ∧
          (heartbeatTimes past key ++ (init.lastHeartbeat key).toList).Pairwise (· ≥ ·) := by
    rw [heartbeatTimes_cons, List.append_assoc, pairwise_toList_append, ← lastHeartbeat_eq h]
  have hstatus (key : ℕ) : (statusTimes ((st, arr) :: past) key).Pairwise (· ≥ ·) ↔
      (∀ t' ∈ arr.statusTime st key, ∀ t ∈ statusTime past key, t ≤ t') ∧
        (statusTimes past key).Pairwise (· ≥ ·) := by
    rw [statusTimes_cons, pairwise_toList_append, ← statusTime_eq]
  constructor
  · rintro ⟨hbeats, hsets⟩
    exact ⟨⟨fun key => ((hheartbeat key).mp (hbeats key)).1, fun key => ((hstatus key).mp (hsets key)).1⟩,
      fun key => ((hheartbeat key).mp (hbeats key)).2, fun key => ((hstatus key).mp (hsets key)).2⟩
  · rintro ⟨⟨hbeat, hset⟩, hbeats, hsets⟩
    exact ⟨fun key => (hheartbeat key).mpr ⟨hbeat key, hbeats key⟩,
      fun key => (hstatus key).mpr ⟨hset key, hsets key⟩⟩

/-- **A step does not go backwards exactly if its event is timely.** -/
theorem step_iff_timely (hstep : arrive st arr = some st') :
    ((∀ key, NotEarlier (st.lastHeartbeat key) (st'.lastHeartbeat key)) ∧ StatusKept past st arr) ↔
      Timely past st arr := by
  refine and_congr (forall_congr' fun key => ?_) (forall_congr' fun key => ?_)
  · rw [NotEarlier, lastHeartbeat_arrive hstep]
    cases arr.heartbeatTime st key with
    | none => exact iff_of_true (NotEarlier.refl _) nofun
    | some t' => simp
  · constructor
    · intro h t' ht' t ht
      exact Int.not_lt.mp (h t t' ht ht')
    · intro h t t' ht ht'
      exact Int.not_lt.mpr (h t' ht' t ht)

/-- A run does not go backwards exactly if its writes are in order. -/
theorem neverBackwards_iff_writtenInOrder {init : Stores} (h : Reach arrive Any init hist st) :
    NeverBackwards hist st ↔ WrittenInOrder init hist := by
  induction h with
  | start =>
    refine iff_of_true trivial ⟨fun key => ?_, fun key => List.Pairwise.nil⟩
    cases hinit : init.lastHeartbeat key with
    | none => exact .nil
    | some t => exact List.pairwise_singleton _ _
  | next hreach _ hstep ih =>
    exact (and_congr (step_iff_timely hstep) ih).trans (writtenInOrder_cons hreach).symm

/-! ### Events in the order of their times -/

/-- The events of each agent arrive in the order of their times. -/
def InOrder : History Stores Arrival → Prop
  | [] => True
  | (s, .deliver d) :: past =>
    (∀ s₀ d₀, (s₀, Arrival.deliver d₀) ∈ past → d₀.ev.agentID = d.ev.agentID →
      d₀.ev.now s₀ ≤ d.ev.now s) ∧ InOrder past
  | (_, .wait _) :: past => InOrder past

/-- An event of the agent of a document had this time. -/
def Sourced (hist : History Stores Arrival) (st : Stores) (key : ℕ) (t : Time) : Prop :=
  ∃ s d dev, (s, Arrival.deliver d) ∈ hist ∧ st.devices.get key = some dev ∧
    dev.agentID = d.ev.agentID ∧ d.ev.now s = t

/-- Documents stay, and are of the same agent. -/
theorem agentID_step (hstep : arrive st arr = some st') {key : ℕ} {dev : Device}
    (hget : st.devices.get key = some dev) :
    ∃ dev', st'.devices.get key = some dev' ∧ dev'.agentID = dev.agentID := by
  cases arr with
  | wait ms =>
    obtain rfl := Option.some.inj hstep
    exact ⟨dev, hget, rfl⟩
  | deliver d =>
    obtain rfl := Option.some.inj hstep
    rw [devices_handleAgentEvent]
    cases changeOf d.ans st d.ev with
    | nothing => exact ⟨dev, hget, rfl⟩
    | create dev' =>
      have hkey : key ≠ st.devices.next := by
        rintro rfl
        exact nomatch (Collection.get_next (c := st.devices)).symm.trans hget
      refine ⟨dev, ?_, rfl⟩
      rw [Change.apply, Repo.create, Collection.get_insert, if_neg hkey, hget]
    | patch key' p =>
      dsimp only [Change.apply]
      rw [Collection.get_updateWhere, hget]
      split_ifs
      · exact ⟨p.apply dev, rfl, rfl⟩
      · exact ⟨dev, rfl, rfl⟩

theorem Sourced.step {key : ℕ} {t : Time} (h : Sourced hist st key t)
    (hstep : arrive st arr = some st') : Sourced ((st, arr) :: hist) st' key t := by
  obtain ⟨s, d, dev, hmem, hget, hid, ht⟩ := h
  obtain ⟨dev', hget', hid'⟩ := agentID_step hstep hget
  exact ⟨s, d, dev', List.mem_cons_of_mem _ hmem, hget', hid'.trans hid, ht⟩

/-- The document that an event writes is one of its agent. -/
theorem sourced_deliver {d : Delivery} (hstep : arrive st (.deliver d) = some st') {key : ℕ}
    (hkey : (changeOf d.ans st d.ev).statusKey st.devices = some key ∨
      ∃ p, changeOf d.ans st d.ev = .patch key p) :
    Sourced ((st, .deliver d) :: hist) st' key (d.ev.now st) := by
  have hpatched {p : Patch} (hchange : changeOf d.ans st d.ev = .patch key p) :
      Sourced ((st, .deliver d) :: hist) st' key (d.ev.now st) := by
    obtain ⟨⟨dev, hfind⟩, -⟩ := changeOf_eq_patch hchange
    obtain ⟨dev', hget', hid'⟩ := agentID_step hstep (get_of_find hfind)
    exact ⟨st, d, dev', List.mem_cons_self, hget', hid'.trans (Repo.agentID_of_find hfind), rfl⟩
  obtain hkey | ⟨p, hchange⟩ := hkey
  · cases hchange : changeOf d.ans st d.ev with
    | nothing =>
      rw [hchange] at hkey
      exact nomatch hkey
    | create dev =>
      rw [hchange] at hkey
      obtain rfl := Option.some.inj hkey
      obtain rfl := changeOf_eq_create hchange
      obtain rfl := Option.some.inj hstep
      refine ⟨st, d, { newDevice d.ev (d.ev.now st) with createdAt := st.clock, updatedAt := st.clock },
        List.mem_cons_self, ?_, rfl, rfl⟩
      rw [devices_handleAgentEvent, hchange, Change.apply, Repo.create, Collection.get_insert,
        if_pos rfl]
    | patch key' p =>
      rw [hchange, Change.statusKey] at hkey
      split_ifs at hkey
      obtain rfl := Option.some.inj hkey
      exact hpatched hchange
  · exact hpatched hchange

/-- A document has this heartbeat from the start. -/
def Stored (devices : Repo) (st : Stores) (key : ℕ) (t : Time) : Prop :=
  ∃ dev₀ dev, devices.get key = some dev₀ ∧ dev₀.lastHeartbeat = some t ∧
    st.devices.get key = some dev ∧ dev.agentID = dev₀.agentID

theorem Stored.step {devices : Repo} {key : ℕ} {t : Time} (h : Stored devices st key t)
    (hstep : arrive st arr = some st') : Stored devices st' key t := by
  obtain ⟨dev₀, dev, hstart, hbeat, hget, hid⟩ := h
  obtain ⟨dev', hget', hid'⟩ := agentID_step hstep hget
  exact ⟨dev₀, dev', hstart, hbeat, hget', hid'.trans hid⟩

/-- What the documents have comes from events of their agents, or they have it from the start. -/
structure FromEvents (devices : Repo) (hist : History Stores Arrival) (st : Stores) : Prop where
  heartbeat : ∀ key, ∀ t ∈ st.lastHeartbeat key, Sourced hist st key t ∨ Stored devices st key t
  status : ∀ key, ∀ t ∈ statusTime hist key, Sourced hist st key t

theorem FromEvents.step {devices : Repo} (h : FromEvents devices hist st)
    (hstep : arrive st arr = some st') : FromEvents devices ((st, arr) :: hist) st' := by
  constructor
  · intro key t ht
    rw [lastHeartbeat_arrive hstep] at ht
    obtain hwritten | ⟨-, hbefore⟩ := Option.or_eq_some_iff.mp ht
    · cases arr with
      | wait ms => exact nomatch hwritten
      | deliver d =>
        rw [Arrival.heartbeatTime] at hwritten
        split at hwritten
        · next key' p hchange =>
          split_ifs at hwritten with hkey
          obtain rfl := Option.some.inj hwritten
          exact .inl (sourced_deliver hstep (.inr ⟨p, hkey ▸ hchange⟩))
        · exact nomatch hwritten
    · exact (h.heartbeat key t hbefore).imp (·.step hstep) (·.step hstep)
  · intro key t ht
    rw [statusTime, List.findSome?_cons] at ht
    split at ht
    · next t' hset =>
      obtain rfl := Option.some.inj ht
      cases arr with
      | wait ms => exact nomatch hset
      | deliver d =>
        rw [Arrival.statusTime] at hset
        split_ifs at hset with hkey
        obtain rfl := Option.some.inj hset
        exact sourced_deliver hstep (.inl hkey)
    · exact (h.status key t ht).step hstep

theorem fromEvents_init (start : ℕ) (devices : Repo) (server : Redis.Server GoString) :
    FromEvents devices [] (.init start devices server) := by
  refine ⟨fun key t ht => .inr ?_, fun key t ht => nomatch ht⟩
  obtain ⟨dev, hget, hheartbeat⟩ := Option.bind_eq_some_iff.mp ht
  exact ⟨dev, dev, hget, hheartbeat, hget, rfl⟩

/-- No event is older than the heartbeat that the devices of its agent have at the start. -/
def NotBefore (devices : Repo) (hist : History Stores Arrival) : Prop :=
  ∀ s d, (s, Arrival.deliver d) ∈ hist → ∀ key dev, devices.get key = some dev →
    dev.agentID = d.ev.agentID → ∀ t ∈ dev.lastHeartbeat, t ≤ d.ev.now s

/-- An event that comes after all older ones of its agent is timely. -/
theorem FromEvents.timely {devices : Repo} (h : FromEvents devices past st) {d : Delivery}
    (horder : ∀ s₀ d₀, (s₀, Arrival.deliver d₀) ∈ past → d₀.ev.agentID = d.ev.agentID →
      d₀.ev.now s₀ ≤ d.ev.now st)
    (hstart : ∀ key dev, devices.get key = some dev → dev.agentID = d.ev.agentID →
      ∀ t ∈ dev.lastHeartbeat, t ≤ d.ev.now st) : Timely past st (.deliver d) := by
  have hagent {key : ℕ} {p : Patch} (hchange : changeOf d.ans st d.ev = .patch key p) {dev : Device}
      (hget : st.devices.get key = some dev) : dev.agentID = d.ev.agentID := by
    obtain ⟨⟨dev', hfind⟩, -⟩ := changeOf_eq_patch hchange
    obtain rfl := Option.some.inj (hget.symm.trans (get_of_find hfind))
    exact Repo.agentID_of_find hfind
  have hpatched {key : ℕ} {p : Patch} (hchange : changeOf d.ans st d.ev = .patch key p) {t : Time}
      (hsource : Sourced past st key t) : t ≤ d.ev.now st := by
    obtain ⟨s₀, d₀, dev₀, hmem, hget, hid, rfl⟩ := hsource
    exact horder s₀ d₀ hmem (hid.symm.trans (hagent hchange hget))
  constructor
  · intro key t' ht' t ht
    rw [Arrival.heartbeatTime] at ht'
    split at ht'
    · next key' p hchange =>
      by_cases hkey : key = key'
      · subst hkey
        rw [if_pos rfl] at ht'
        obtain rfl := Option.some.inj ht'
        obtain hsource | ⟨dev₀, dev, hbegan, hbeat, hget, hid⟩ := h.heartbeat key t ht
        · exact hpatched hchange hsource
        · exact hstart key dev₀ hbegan (hid.symm.trans (hagent hchange hget)) t hbeat
      · rw [if_neg hkey] at ht'
        exact nomatch ht'
    · exact nomatch ht'
  · intro key t' ht' t ht
    rw [Arrival.statusTime] at ht'
    by_cases hkey : (changeOf d.ans st d.ev).statusKey st.devices = some key
    swap
    · rw [if_neg hkey] at ht'
      exact nomatch ht'
    rw [if_pos hkey] at ht'
    obtain rfl := Option.some.inj ht'
    cases hchange : changeOf d.ans st d.ev with
    | nothing =>
      rw [hchange] at hkey
      exact nomatch hkey
    | create dev =>
      -- no event has set the status of a document that is still to come
      rw [hchange] at hkey
      obtain rfl := Option.some.inj hkey
      obtain ⟨s₀, d₀, dev₀, -, hget, -⟩ := h.status _ t ht
      exact nomatch (Collection.get_next (c := st.devices)).symm.trans hget
    | patch key' p =>
      rw [hchange, Change.statusKey] at hkey
      split_ifs at hkey
      obtain rfl := Option.some.inj hkey
      exact hpatched hchange (h.status _ t ht)

/-- Events that arrive in the order of their times take nothing back. -/
theorem neverBackwards_of_inOrder {start : ℕ} {devices : Repo} {server : Redis.Server GoString}
    (h : Reach arrive Any (.init start devices server) hist st) :
    InOrder hist → NotBefore devices hist → NeverBackwards hist st := by
  suffices hboth : FromEvents devices hist st ∧
    (InOrder hist → NotBefore devices hist → NeverBackwards hist st) from hboth.2
  induction h with
  | start => exact ⟨fromEvents_init start devices server, fun _ _ => trivial⟩
  | @next hist s s' arr _ _ hstep ih =>
    obtain ⟨hfrom, hbackwards⟩ := ih
    refine ⟨hfrom.step hstep, fun horder hstart => ?_⟩
    have hbefore : NotBefore devices hist := fun s₀ d₀ hmem =>
      hstart s₀ d₀ (List.mem_cons_of_mem _ hmem)
    cases arr with
    | wait ms => exact ⟨(step_iff_timely hstep).mpr ⟨nofun, nofun⟩, hbackwards horder hbefore⟩
    | deliver d =>
      refine ⟨(step_iff_timely hstep).mpr ?_, hbackwards horder.2 hbefore⟩
      exact hfrom.timely horder.1 (hstart s d List.mem_cons_self)

/-- **A run does not go backwards exactly if what writes each document arrives in the order of the
times.** So it is where the events of each agent do, and none is older than what was stored before. -/
theorem neverBackwards_iff {start : ℕ} {devices : Repo} {server : Redis.Server GoString}
    (h : Reach arrive Any (.init start devices server) hist st) :
    (NeverBackwards hist st ↔ WrittenInOrder (.init start devices server) hist) ∧
      (InOrder hist → NotBefore devices hist → NeverBackwards hist st) :=
  ⟨neverBackwards_iff_writtenInOrder h, neverBackwards_of_inOrder h⟩

end Runs

/-! ### Two runs -/

/-- A heartbeat of an agent at some time. -/
def heartbeatAt (t : Time) : Arrival :=
  .deliver { conn := 0, ev := { agentID := str "a1", event := .heartbeat, timestamp := some t } }

/-- The connect of the agent at some time. -/
def connectAt (t : Time) : Arrival :=
  .deliver { conn := 0, ev := { agentID := str "a1", event := .connect, timestamp := some t } }

/-- A device of the agent that had a heartbeat before. -/
def seenAt (t : Time) : Repo :=
  Repo.create .empty
    { newDevice { agentID := str "a1", event := .connect } 0 with lastHeartbeat := some t } 0

theorem neverBackwards_iff_inOrder :
    ∃ hist st, replay arrive [] (.init 0 (seenAt 5)) [connectAt 10, heartbeatAt 20, heartbeatAt 30] =
      some (hist, st) ∧ st.lastHeartbeat 0 = some 30 ∧ NeverBackwards hist st ∧
        WrittenInOrder (.init 0 (seenAt 5)) hist := by
  obtain ⟨hist, st, hrun, hlast, horder, hstart⟩ : ∃ hist st,
      replay arrive [] (.init 0 (seenAt 5)) [connectAt 10, heartbeatAt 20, heartbeatAt 30] =
        some (hist, st) ∧ st.lastHeartbeat 0 = some 30 ∧ InOrder hist ∧ NotBefore (seenAt 5) hist := by
    refine ⟨_, _, rfl, rfl, ?_, ?_⟩
    · simp only [InOrder, connectAt, heartbeatAt, List.mem_cons, Prod.mk.injEq, List.not_mem_nil,
        Arrival.deliver.injEq, or_false, false_imp_iff, implies_true, and_true]
      constructor
      · rintro s₀ d₀ (⟨-, rfl⟩ | ⟨-, rfl⟩) -
        · exact (by decide : (20 : Time) ≤ 30)
        · exact (by decide : (10 : Time) ≤ 30)
      · rintro s₀ d₀ ⟨-, rfl⟩ -
        exact (by decide : (10 : Time) ≤ 20)
    · intro s d hmem key dev hget _ t ht
      have hfive : t = 5 := by
        rw [seenAt, Repo.create, Collection.get_insert] at hget
        split_ifs at hget
        · obtain rfl := Option.some.inj hget
          exact (Option.some.inj ht).symm
        · cases hget
      subst hfive
      simp only [connectAt, heartbeatAt, List.mem_cons, Prod.mk.injEq, List.not_mem_nil,
        Arrival.deliver.injEq, or_false] at hmem
      obtain ⟨-, rfl⟩ | ⟨-, rfl⟩ | ⟨-, rfl⟩ := hmem
      · exact (by decide : (5 : Time) ≤ 30)
      · exact (by decide : (5 : Time) ≤ 20)
      · exact (by decide : (5 : Time) ≤ 10)
  obtain ⟨hiff, hbackwards⟩ := neverBackwards_iff (Reach.start.replay hrun)
  have hnever := hbackwards horder hstart
  exact ⟨hist, st, hrun, hlast, hnever, hiff.mp hnever⟩

/-- A heartbeat that was delayed takes the device back. -/
theorem not_neverBackwards :
    ¬∀ (start : ℕ) (devices : Repo) (hist : History Stores Arrival) (st : Stores),
      Reach arrive Any (.init start devices) hist st → NeverBackwards hist st := by
  intro h
  obtain ⟨past, s, st, hrun, hbefore, hafter⟩ : ∃ past s st,
      replay arrive [] (.init 0 .empty) [connectAt 10, heartbeatAt 30, heartbeatAt 20] =
        some ((s, heartbeatAt 20) :: past, st) ∧ s.lastHeartbeat 0 = some 30 ∧
        st.lastHeartbeat 0 = some 20 :=
    ⟨_, _, _, rfl, rfl, rfl⟩
  obtain ⟨t, ht, hle⟩ := (h _ _ _ _ (Reach.start.replay hrun)).1.1 0 30 hbefore
  obtain rfl := Option.some.inj (hafter.symm.trans ht)
  exact absurd hle (by decide)

end Devices

end Xsiam
