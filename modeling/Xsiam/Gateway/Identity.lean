import Xsiam.Gateway.Batches
import Xsiam.Gateway.Classified
import Xsiam.Gateway.Kept

/-!
# Who the records say they are from

A HELLO binds its connection to the agent it announces, under a name that is a string. A record
names its agent by a number (`Xsiam.Gateway.EventFields.agentID`), which is taken from the header of
the frame it came in; the two are never compared, and a batch is handled on a connection that no
HELLO has bound.

So the records of a run carry the agent that their connection announced last
(`Xsiam.Gateway.eventsIdentified_iff_named`) exactly if every batch comes on a connection that is
bound to an agent of the name that the number in its header is.
-/

namespace Xsiam

namespace Gateway

open Go (str)
open Run

/-! ### Records and their connections -/

/-- An agent ID as a record has it, written out. -/
def idText (agentID : UInt32) : CString := str (toString agentID.toNat)

/-- The records that an input makes, if it is handled. -/
def recordsOf (c : ℕ) (conn : Conn) (ans : Answers) : Input → List LogRecord
  | .frame f =>
    if f.msgType = wzcpMsgEventBatch then
      match parseEventBatch f.body with
      | none => []
      | some events =>
        if ans.encodes events.length then events.map (eventLogRecord c conn.asAgent f) else []
    else []
  | .syslog text =>
    if ans.encodes (syslogLines text).length then
      (syslogLines text).map
        (syslogLogRecord c (conn.classify (str "syslog") (str "device")))
    else []

/-- The records handed on between two states. -/
def emitted (s s' : State) : List LogRecord := (s'.handed.drop s.handed.length).flatten

/-- The agent that an event announces on a connection. -/
def Event.announced (c : ℕ) : Event → Option CString
  | .input c' i _ => if c' = c then i.announced else none
  | _ => none

/-- The agent that a connection announced last. -/
def lastAnnounced (past : History State Event) (c : ℕ) : Option CString :=
  past.findSome? (·.2.announced c)

/-- A record of an event carries the agent that its connection announced last. -/
def Identified (past : History State Event) (r : LogRecord) : Prop :=
  ∀ fields, r.event = some fields → ∃ c, r.sessionID = sessionID c ∧
    lastAnnounced past c = some (idText fields.agentID)

/-- Every record of an event that was handed on in a run carried the agent that its connection
had announced last at that time. -/
def EventsIdentified : History State Event → State → Prop
  | [], _ => True
  | (s, _) :: past, s' => (∀ r ∈ emitted s s', Identified past r) ∧ EventsIdentified past s

/-- A batch that has records comes on a connection bound to the agent that its header names. -/
def Named (s : State) : Event → Prop
  | .input c (.frame f) ans => f.msgType = wzcpMsgEventBatch →
    ∀ events, parseEventBatch f.body = some events → events ≠ [] →
      ans.encodes events.length = true → s.agentKey c = some (idText f.agentID)
  | _ => True

theorem sessionID_inj {c c' : ℕ} (h : sessionID c = sessionID c') : c = c' := by
  have hrepr := String.append_right_inj _ |>.mp (Go.str_inj.mp h)
  exact Nat.succ.inj (Nat.repr_inj.mp hrepr)

/-! ### What is handed on -/

section Handed

variable {cfg : Config} {s s' : State} {c : ℕ} {conn : Conn} {ans : Answers}

theorem sendAck_handed (seq : UInt64) : (s.sendAck c seq ans).1.handed = s.handed := by
  rw [State.sendAck]
  split_ifs <;> rfl

theorem hand_handed (records : List LogRecord) :
    (s.hand records).handed = s.handed ++ if records = [] then [] else [records] := by
  rw [State.hand]
  split_ifs
  · exact (List.append_nil _).symm
  · rfl

theorem processHello_handed (f : Frame) : (processHello cfg s c f ans).1.handed = s.handed := by
  rw [processHello]
  split
  · rfl
  · exact sendAck_handed f.seq

/-- **What an input hands on.** -/
theorem process_handed (i : Input) :
    (process cfg s c conn ans i).1.handed = (s.hand (recordsOf c conn ans i)).handed := by
  cases i with
  | syslog text =>
    rw [process, processSyslogLines, recordsOf]
    split_ifs
    · rw [hand_handed, hand_handed]
      rfl
    · rfl
  | frame f =>
    rw [recordsOf]
    by_cases hbatch : f.msgType = wzcpMsgEventBatch
    · have hbefore : ((s.setConn c fun _ => conn.asAgent).refresh cfg c).handed = s.handed :=
        refresh_handed _ c
      rw [process_batch hbatch, if_pos hbatch, processEventBatch]
      cases parseEventBatch f.body with
      | none => exact hbefore
      | some events =>
        dsimp only
        split_ifs
        · rw [sendAck_handed, hand_handed, hand_handed, hbefore]
        · exact hbefore
    · rw [if_neg hbatch, process, processFrame, if_neg hbatch]
      split_ifs
      · exact processHello_handed f
      · rw [sendAck_handed, refresh_handed]
        rfl
      · rfl

theorem connDel_handed : (connDel cfg s c).handed = s.handed := by
  rw [connDel]
  split <;> rfl

theorem flatten_drop_hand {before after : State} {records : List LogRecord}
    (h : after.handed = (before.hand records).handed) : emitted before after = records := by
  rw [emitted, h, hand_handed, List.drop_left]
  split_ifs with hnil
  · exact hnil.symm
  · exact List.append_nil _

/-- An input hands on its records, and nothing else hands on any. -/
theorem emitted_step {ev : Event} (hstep : step cfg s ev = some s') :
    (∃ c i ans conn, ev = .input c i ans ∧ s.conns.get c = some conn ∧
      emitted s s' = recordsOf c conn ans i) ∨
    ((∀ c i ans, ev ≠ .input c i ans) ∧ emitted s s' = []) := by
  cases ev with
  | accept =>
    obtain rfl := Option.some.inj hstep
    exact .inr ⟨fun _ _ _ => nofun, flatten_drop_hand rfl⟩
  | wait seconds =>
    obtain rfl := Option.some.inj hstep
    exact .inr ⟨fun _ _ _ => nofun, flatten_drop_hand rfl⟩
  | close c =>
    obtain rfl := step_close hstep
    exact .inr ⟨fun _ _ _ => nofun, flatten_drop_hand connDel_handed⟩
  | input c i ans =>
    obtain ⟨conn, hget, rfl⟩ := step_input hstep
    refine .inl ⟨c, i, ans, conn, rfl, hget, flatten_drop_hand ?_⟩
    split_ifs
    · exact process_handed i
    · rw [connDel_handed, process_handed]

end Handed

/-! ### What connections announced -/

/-- A connection that is no longer open. -/
def State.Closed (s : State) (c : ℕ) : Prop := c < s.conns.next ∧ s.conns.get c = none

/-- A connection is bound to the agent it announced last, while it is open. -/
structure BoundAsAnnounced (hist : History State Event) (s : State) : Prop where
  bound : ∀ c id, s.agentKey c = some id → lastAnnounced hist c = some id
  announced : ∀ c id, lastAnnounced hist c = some id → s.agentKey c = some id ∨ s.Closed c

section Announced

variable {cfg : Config} {s s' : State} {c : ℕ} {conn : Conn} {ans : Answers}
  {hist : History State Event}

theorem lt_next_of_get (h : s.conns.get c = some conn) : c < s.conns.next := by
  obtain ⟨d, hfind, -⟩ := Option.map_eq_some_iff.mp h
  have hkey := List.find?_some hfind
  exact of_decide_eq_true hkey ▸ s.conns.lt_next d (List.mem_of_find?_eq_some hfind)

theorem conns_connDel (cfg : Config) (s : State) (c : ℕ) :
    (connDel cfg s c).conns = s.conns.erase c := by
  rw [connDel]
  split <;> rfl

/-- **A connection that is closed stays closed.** -/
theorem kept_closed (cfg : Config) (c : ℕ) : Kept cfg (·.Closed c) where
  accept h := by
    refine ⟨Nat.lt_succ_of_lt h.1, ?_⟩
    rw [Collection.get_insert, if_neg (Nat.ne_of_lt h.1)]
    exact h.2
  wait _ h := h
  classify {s c' conn} _ _ _ h := by
    refine ⟨h.1, ?_⟩
    rw [State.setConn, Collection.get_updateWhere, h.2]
    exact ite_self _
  greet {s body hello} c' _ h := by
    refine ⟨h.1, ?_⟩
    rw [State.greet, State.setConn, Collection.get_updateWhere]
    show (if c = c' then (s.conns.get c).map _ else s.conns.get c) = none
    rw [h.2]
    exact ite_self _
  refresh {s} c' h := by
    rw [State.refresh]
    split
    · exact h
    · exact h
  ack _ _ h := h
  hand _ h := h
  connDel {s} c' h := by
    rw [State.Closed, conns_connDel, Collection.get_erase, h.2]
    refine ⟨h.1, ?_⟩
    exact ite_self _

/-- What an event announces comes before what was announced. -/
theorem lastAnnounced_cons {ev : Event} :
    lastAnnounced ((s, ev) :: hist) c = (ev.announced c).or (lastAnnounced hist c) := by
  rw [lastAnnounced, List.findSome?_cons]
  cases ev.announced c <;> rfl

/-- An event that announces nobody and binds nobody. -/
theorem BoundAsAnnounced.keep {ev : Event} (h : BoundAsAnnounced hist s) (hstep : step cfg s ev = some s')
    (hkey : ∀ c, s'.agentKey c = s.agentKey c) (hev : ∀ c, ev.announced c = none) :
    BoundAsAnnounced ((s, ev) :: hist) s' := by
  constructor
  · intro c id hid
    rw [lastAnnounced_cons, hev, Option.none_or]
    exact h.bound c id (hkey c ▸ hid)
  · intro c id hid
    rw [lastAnnounced_cons, hev, Option.none_or] at hid
    refine (h.announced c id hid).imp (hkey c ▸ ·) fun hclosed => ?_
    exact (kept_closed cfg c).step hclosed hstep

/-- An event of one connection: that is bound to the agent it announces, or else to the one it was
bound to, or it is closed. -/
theorem BoundAsAnnounced.change {ev : Event} {key : Option CString} (h : BoundAsAnnounced hist s)
    (hstep : step cfg s ev = some s') (hget : s.conns.get c = some conn)
    (hkey : ∀ c', s'.agentKey c' = Function.update s.agentKey c key c')
    (hother : ∀ c', c' ≠ c → ev.announced c' = none)
    (hself : key = (ev.announced c).or (s.agentKey c) ∨ key = none ∧ s'.Closed c) :
    BoundAsAnnounced ((s, ev) :: hist) s' := by
  constructor
  · intro c' id hid
    rw [hkey] at hid
    rw [lastAnnounced_cons]
    by_cases hc : c' = c
    · rw [hc, Function.update_self] at hid
      rw [hc]
      obtain hself | ⟨hself, -⟩ := hself
      · rw [hself] at hid
        cases hev : ev.announced c with
        | some a => rwa [hev, Option.some_or] at hid
        | none =>
          rw [hev, Option.none_or] at hid
          exact h.bound c id hid
      · exact nomatch hself.symm.trans hid
    · rw [Function.update_of_ne hc] at hid
      rw [hother c' hc, Option.none_or]
      exact h.bound c' id hid
  · intro c' id hid
    rw [lastAnnounced_cons] at hid
    rw [hkey]
    by_cases hc : c' = c
    · rw [hc] at hid
      rw [hc, Function.update_self]
      obtain hself | ⟨-, hclosed⟩ := hself
      · refine .inl (hself.trans ?_)
        cases hev : ev.announced c with
        | some a => rwa [hev, Option.some_or] at hid
        | none =>
          rw [hev, Option.none_or] at hid
          obtain hid | hclosed := h.announced c id hid
          · exact hid
          · exact nomatch hclosed.2.symm.trans hget
      · -- a connection that is closed stays so
        exact .inr hclosed
    · rw [hother c' hc, Option.none_or] at hid
      rw [Function.update_of_ne hc]
      exact (h.announced c' id hid).imp_right fun hclosed =>
        (kept_closed cfg c').step hclosed hstep

/-- A connection that is torn down is closed. -/
theorem closed_connDel (cfg : Config) (hc : c < s.conns.next) : (connDel cfg s c).Closed c := by
  rw [State.Closed, conns_connDel, Collection.get_erase, if_pos rfl]
  exact ⟨hc, rfl⟩

/-- **Every step keeps a connection bound to the agent it announced last.** -/
theorem BoundAsAnnounced.step {ev : Event} (h : BoundAsAnnounced hist s) (hstep : step cfg s ev = some s') :
    BoundAsAnnounced ((s, ev) :: hist) s' := by
  cases ev with
  | accept =>
    refine h.keep hstep (fun c => ?_) fun _ => rfl
    obtain rfl := Option.some.inj hstep
    exact agentKey_accept s c
  | wait seconds =>
    refine h.keep hstep (fun c => ?_) fun _ => rfl
    obtain rfl := Option.some.inj hstep
    rfl
  | close c =>
    obtain ⟨conn, hget⟩ : ∃ conn, s.conns.get c = some conn := by
      rw [Gateway.step] at hstep
      split at hstep
      · cases hstep
      · exact ⟨_, ‹_›⟩
    have hview := congrArg Occupancy.State.group (view_connDel cfg s c)
    refine h.change hstep hget ?_ (fun _ _ => rfl) (.inr ⟨rfl, ?_⟩)
    · obtain rfl := step_close hstep
      exact congrFun hview
    · obtain rfl := step_close hstep
      exact closed_connDel cfg (lt_next_of_get hget)
  | input c i ans =>
    obtain ⟨conn, hget, hs'⟩ := step_input hstep
    have hself : (Event.input c i ans).announced c = i.announced := if_pos rfl
    have hother (c' : ℕ) (hc : c' ≠ c) : (Event.input c i ans).announced c' = none :=
      if_neg hc.symm
    cases hsurvives : i.survives ans with
    | true =>
      rw [hsurvives, if_pos rfl] at hs'
      refine h.change hstep hget (fun c' => ?_) hother (.inl rfl)
      -- a frame that goes well binds its connection to the agent it announces
      have hview := congrArg Occupancy.State.group (@view_process cfg s c conn ans hget i)
      refine (congrArg (·.agentKey c') hs').trans ((congrFun hview c').trans ?_)
      rw [hself]
      cases i.announced with
      | none => exact (congrFun (Function.update_eq_self c s.agentKey) c').symm
      | some a => rfl
    | false =>
      rw [hsurvives, if_neg (by simp)] at hs'
      refine h.change hstep hget (fun c' => ?_) hother (.inr ⟨rfl, ?_⟩)
      · have hview := congrArg Occupancy.State.group (@leave_process cfg s c conn ans hget i)
        exact (congrArg (·.agentKey c') hs').trans (congrFun hview c')
      · rw [hs']
        obtain ⟨conn', hget', -⟩ := get_process hget ans i
        exact closed_connDel cfg (lt_next_of_get hget')

theorem boundAsAnnounced_init (now : ℤ) : BoundAsAnnounced [] (.init now) :=
  ⟨fun _ _ hid => (nomatch hid), fun _ _ hid => (nomatch hid)⟩

end Announced

/-! ### Runs -/

section Runs

variable {cfg : Config} {s s' : State} {hist : History State Event}

/-- **The records of a step carry the agent its connection announced last exactly if the step is
named.** -/
theorem identified_iff_named {ev : Event} (h : BoundAsAnnounced hist s) (hstep : step cfg s ev = some s') :
    (∀ r ∈ emitted s s', Identified hist r) ↔ Named s ev := by
  obtain ⟨c, i, ans, conn, rfl, hget, hemitted⟩ | ⟨hev, hemitted⟩ := emitted_step hstep
  · rw [hemitted]
    cases i with
    | syslog text =>
      -- a line is no event
      refine iff_of_true (fun r hr fields hfields => ?_) trivial
      rw [recordsOf] at hr
      split_ifs at hr
      · obtain ⟨line, -, rfl⟩ := List.mem_map.mp hr
        exact nomatch hfields
      · exact absurd hr List.not_mem_nil
    | frame f =>
      constructor
      · intro hrecords hbatch events hparse hne hencodes
        rw [recordsOf, if_pos hbatch, hparse] at hrecords
        dsimp only at hrecords
        rw [if_pos hencodes] at hrecords
        obtain ⟨ev, hev⟩ := List.exists_mem_of_ne_nil events hne
        obtain ⟨c', hsession, hlast⟩ := hrecords _ (List.mem_map_of_mem hev) _ rfl
        obtain rfl := sessionID_inj hsession
        obtain hkey | hclosed := h.announced c _ hlast
        · exact hkey
        · exact nomatch hclosed.2.symm.trans hget
      · intro hnamed r hr fields hfields
        rw [recordsOf] at hr
        split_ifs at hr with hbatch
        · split at hr
          · exact absurd hr List.not_mem_nil
          · next events hparse =>
            split_ifs at hr with hencodes
            · obtain ⟨ev, hev, rfl⟩ := List.mem_map.mp hr
              obtain rfl := Option.some.inj hfields
              have hne : events ≠ [] := List.ne_nil_of_mem hev
              exact ⟨c, rfl, h.bound c _ (hnamed hbatch events hparse hne hencodes)⟩
            · exact absurd hr List.not_mem_nil
        · exact absurd hr List.not_mem_nil
  · rw [hemitted]
    refine iff_of_true (fun r hr => absurd hr List.not_mem_nil) ?_
    cases ev with
    | input c i ans => exact absurd rfl (hev c i ans)
    | _ => trivial

/-- **The records of a run carry the agents that their connections announced exactly if every step
is named.** -/
theorem eventsIdentified_iff_named {now : ℤ} (h : Reach (step cfg) Any (.init now) hist s) :
    EventsIdentified hist s ↔ ∀ p ∈ hist, Named p.1 p.2 := by
  suffices hboth : BoundAsAnnounced hist s ∧ (EventsIdentified hist s ↔ ∀ p ∈ hist, Named p.1 p.2) from
    hboth.2
  induction h with
  | start =>
    exact ⟨boundAsAnnounced_init now, iff_of_true trivial fun p hp => absurd hp List.not_mem_nil⟩
  | next _ _ hstep ih =>
    obtain ⟨hannounced, hrun⟩ := ih
    refine ⟨hannounced.step hstep, ?_⟩
    rw [EventsIdentified, List.forall_mem_cons, hrun, identified_iff_named hannounced hstep]

end Runs

/-! ### Two runs -/

/-- A batch of one event, from an agent with this number. -/
def batchOf (agentID : UInt32) : Input := .frame { oneEvent with agentID }

theorem eventsIdentified_iff_named_one :
    ∃ hist s, replay (step {}) [] (.init 0)
        [.accept, .input 0 (helloOf 0x31) {}, .input 0 (batchOf 1) {}] = some (hist, s) ∧
      s.handed.length = 1 ∧ EventsIdentified hist s := by
  obtain ⟨hist, s, s₀, s₁, s₂, hrun, hhanded, hhist, hkey⟩ : ∃ hist s s₀ s₁ s₂,
      replay (step {}) [] (.init 0)
          [.accept, .input 0 (helloOf 0x31) {}, .input 0 (batchOf 1) {}] = some (hist, s) ∧
        s.handed.length = 1 ∧ hist = [(s₂, .input 0 (batchOf 1) {}),
          (s₁, .input 0 (helloOf 0x31) {}), (s₀, .accept)] ∧ s₂.agentKey 0 = some (idText 1) :=
    ⟨_, _, _, _, _, rfl, rfl, rfl, rfl⟩
  refine ⟨hist, s, hrun, hhanded, (eventsIdentified_iff_named (Reach.start.replay hrun)).mpr ?_⟩
  rw [hhist, List.forall_mem_cons, List.forall_mem_cons, List.forall_mem_singleton]
  exact ⟨fun _ _ _ _ _ => hkey, fun hbatch => absurd hbatch (by decide), trivial⟩

/-- An agent announces a name that is no number, and its first event carries the number that its
frames carry. -/
theorem not_eventsIdentified :
    ¬∀ (cfg : Config) (now : ℤ) (hist : History State Event) (s : State),
      Reach (step cfg) Any (.init now) hist s → EventsIdentified hist s := by
  intro h
  obtain ⟨s₀, s₁, s₂, s, r, fields, hrun, hr, hfields, hid⟩ : ∃ s₀ s₁ s₂ s r fields,
      replay (step {}) [] (.init 0)
          [.accept, .input 0 (helloOf 0x61) {}, .input 0 (batchOf 1) {}] =
        some ([(s₂, .input 0 (batchOf 1) {}), (s₁, .input 0 (helloOf 0x61) {}), (s₀, .accept)], s) ∧
        r ∈ emitted s₂ s ∧ r.event = some fields ∧ fields.agentID = 1 :=
    ⟨_, _, _, _, _, _, rfl, List.mem_singleton.mpr rfl, rfl, rfl⟩
  obtain ⟨c, -, hlast⟩ := (h _ _ _ _ (Reach.start.replay hrun)).1 r hr fields hfields
  rw [hid, lastAnnounced_cons, lastAnnounced_cons] at hlast
  by_cases hc : 0 = c
  · rw [← hc] at hlast
    exact absurd (hlast : some [0x61] = some (idText 1)) (by decide)
  · have hhello : (Event.input 0 (helloOf 0x61) {}).announced c = none := if_neg hc
    rw [hhello] at hlast
    exact nomatch hlast

end Gateway

end Xsiam
