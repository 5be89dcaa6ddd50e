import Xsiam.Gateway.Conn
import Xsiam.Lib.Occupancy

/-!
# Agents and the connections bound to them

The table of agents is to say that an agent is connected while an open connection is bound
to it (`Xsiam.Gateway.TableRight`). A HELLO sets the flag of its agent, the end of a connection
clears it, and neither looks at other connections; so the table is a case of flags that
do not count (`Xsiam.Gateway.State.view`).

It goes wrong in two ways. A connection that is bound to an agent and announces another one
leaves the first one connected with no connection, and a connection that ends while
another one is bound to its agent takes the agent offline
(`Xsiam.Gateway.not_tableRight`). In every run the table is right in all states exactly if no
event does one of these two things (`Xsiam.Gateway.tableRight_iff_careful`).
-/

namespace Xsiam

namespace Gateway

open Run

/-! ### The table and the connections -/

/-- An open connection is bound to an agent. -/
def State.Bound (s : State) (agentID : CString) : Prop := ∃ c, s.agentKey c = some agentID

/-- An open connection other than `c` is bound to an agent. -/
def State.BoundElsewhere (s : State) (c : ℕ) (agentID : CString) : Prop :=
  ∃ c', c' ≠ c ∧ s.agentKey c' = some agentID

/-- The table marks an agent connected, and its status online, while an open connection is
bound to it. -/
def TableRight (s : State) : Prop :=
  ∀ agentID, (Connected s.agents agentID ↔ s.Bound agentID) ∧
    (Online s.agents agentID ↔ s.Bound agentID)

/-- Connections as members of their agents. -/
def State.view (s : State) : Occupancy.State ℕ CString := ⟨s.agentKey, Connected s.agents⟩

theorem view_eq {s s' : State} (hkey : ∀ c, s'.agentKey c = s.agentKey c)
    (hconn : ∀ a, Connected s'.agents a ↔ Connected s.agents a) : s'.view = s.view :=
  congrArg₂ Occupancy.State.mk (funext hkey) (funext fun a => propext (hconn a))

theorem tableRight_iff {s : State} (h : Consistent s.agents) : TableRight s ↔ s.view.Right := by
  refine forall_congr' fun a => ?_
  rw [h.online_iff a, and_self]
  rfl

/-- A table that is consistent stays so, and the connections and the flags are as they
were. -/
structure Keeps (s s' : State) : Prop where
  view : s'.view = s.view
  consistent : Consistent s.agents → Consistent s'.agents

theorem Keeps.refl (s : State) : Keeps s s := ⟨rfl, id⟩

theorem Keeps.trans {s s' s'' : State} (h : Keeps s s') (h' : Keeps s' s'') : Keeps s s'' :=
  ⟨h'.view.trans h.view, h'.consistent ∘ h.consistent⟩

theorem Keeps.agentKey {s s' : State} (h : Keeps s s') (c : ℕ) : s'.agentKey c = s.agentKey c :=
  congrFun (congrArg Occupancy.State.group h.view) c

/-! ### What the handlers do to it -/

section Handlers

variable {cfg : Config} {s : State} {c : ℕ} {conn : Conn} {ans : Answers}

theorem agentKey_of_get (h : s.conns.get c = some conn) : s.agentKey c = conn.agentKey := by
  rw [State.agentKey, h, Option.bind_some]

/-- A connection that is new is bound to nobody, as before it was there. -/
theorem agentKey_accept (s : State) (c : ℕ) :
    State.agentKey { s with conns := s.conns.insert {} } c = s.agentKey c := by
  rw [State.agentKey, Collection.get_insert, State.agentKey]
  split_ifs with hc
  · rw [hc, Collection.get_next]
    rfl
  · rfl

theorem agentKey_setConn (f : Conn → Conn) (c' : ℕ) :
    (s.setConn c f).agentKey c' =
      if c' = c then (s.conns.get c').bind fun conn => (f conn).agentKey else s.agentKey c' := by
  rw [State.agentKey, State.setConn, Collection.get_updateWhere, State.agentKey]
  split_ifs
  · cases s.conns.get c' with
    | none => rfl
    | some conn => rfl
  · rfl

/-- A connection that keeps its agent. -/
theorem keeps_setConn {f : Conn → Conn} (hget : s.conns.get c = some conn)
    (hf : (f conn).agentKey = conn.agentKey) : Keeps s (s.setConn c f) := by
  refine ⟨view_eq (fun c' => ?_) fun a => Iff.rfl, id⟩
  rw [agentKey_setConn]
  split_ifs with hc
  · rw [hc, hget, Option.bind_some, hf, agentKey_of_get hget]
  · rfl

theorem get_setConn (f : Conn → Conn) (hget : s.conns.get c = some conn) :
    (s.setConn c f).conns.get c = some (f conn) := by
  rw [State.setConn, Collection.get_updateWhere, if_pos rfl, hget, Option.map_some]

/-- What a connection reads refreshes its agent, and binds nobody. -/
theorem keeps_refresh (cfg : Config) (s : State) (c : ℕ) : Keeps s (s.refresh cfg c) := by
  rw [State.refresh]
  split
  · exact .refl s
  · exact ⟨view_eq (fun _ => rfl) fun a => connected_markHeartbeat _ a,
      fun h => consistent_markHeartbeat h _⟩

theorem keeps_sendAck (s : State) (c : ℕ) (seq : UInt64) (ans : Answers) :
    Keeps s (s.sendAck c seq ans).1 := by
  rw [State.sendAck]
  split_ifs
  · exact ⟨rfl, id⟩
  · exact .refl s

theorem keeps_hand (s : State) (records : List LogRecord) : Keeps s (s.hand records) := by
  rw [State.hand]
  split_ifs
  · exact .refl s
  · exact ⟨rfl, id⟩

theorem keeps_processEventBatch (f : Frame) : Keeps s (processEventBatch s c conn f ans).1 := by
  rw [processEventBatch]
  split
  · exact .refl s
  · split_ifs
    · exact (keeps_hand s _).trans (keeps_sendAck _ c f.seq ans)
    · exact .refl s

theorem keeps_processSyslogLines (text : List UInt8) :
    Keeps s (processSyslogLines s c conn text ans).1 := by
  rw [processSyslogLines]
  split_ifs
  · exact keeps_hand s _
  · exact .refl s

/-- **A HELLO that names an agent binds its connection to it.** -/
theorem view_processHello {f : Frame} {hello : Hello} (hget : s.conns.get c = some conn)
    (hparse : parseHello f.body = some hello) (hid : hello.agentID ≠ []) :
    (processHello cfg s c f ans).1.view = s.view.join c hello.agentID := by
  simp only [processHello, hparse]
  rw [(keeps_sendAck _ c f.seq ans).view]
  refine congrArg₂ Occupancy.State.mk (funext fun c' => ?_)
    (funext fun a => propext (connected_markSeen hid a))
  rw [agentKey_setConn]
  by_cases hc : c' = c
  · rw [if_pos hc, hc, Function.update_self]
    show (s.conns.get c).bind _ = _
    rw [hget, Option.bind_some, if_neg hid]
    rfl
  · rw [if_neg hc, Function.update_of_ne hc]
    rfl

theorem consistent_processHello (h : Consistent s.agents) (f : Frame) :
    Consistent (processHello cfg s c f ans).1.agents := by
  rw [processHello]
  split
  · exact h
  · exact (keeps_sendAck _ c f.seq ans).consistent (consistent_markSeen h _)

/-- A HELLO that names nobody binds nobody. -/
theorem keeps_processHello {f : Frame} {hello : Hello} (hget : s.conns.get c = some conn)
    (hparse : parseHello f.body = some hello) (hid : hello.agentID = []) :
    Keeps s (processHello cfg s c f ans).1 := by
  refine ⟨?_, fun h => consistent_processHello h f⟩
  simp only [processHello, hparse]
  rw [(keeps_sendAck _ c f.seq ans).view, markSeen, if_pos hid]
  refine (keeps_setConn hget ?_).view
  rw [if_pos hid]
  rfl

/-- **What an input does**: it binds its connection to the agent it announces, or it binds
nobody. -/
theorem view_process (hget : s.conns.get c = some conn) (i : Input) :
    (process cfg s c conn ans i).1.view = i.announced.elim s.view (s.view.join c) := by
  cases i with
  | syslog text =>
    rw [process]
    exact (keeps_processSyslogLines text).view.trans (keeps_setConn hget rfl).view
  | frame f =>
    have hclass : Keeps s (s.setConn c fun _ => conn.classify (Go.str "agent_wzcp") (Go.str "agent")) :=
      keeps_setConn hget rfl
    rw [process, processFrame, Input.announced]
    split_ifs with hhello hheartbeat hbatch
    · cases hparse : parseHello f.body with
      | none =>
        rw [processHello, hparse]
        exact hclass.view
      | some hello =>
        -- a HELLO without an agent ID is acknowledged, but binds nobody
        by_cases hid : hello.agentID = []
        · rw [(keeps_processHello (get_setConn _ hget) hparse hid).view, hclass.view]
          simp only [hid, if_true]
          rfl
        · rw [view_processHello (get_setConn _ hget) hparse hid, hclass.view]
          simp only [hid, if_false]
          rfl
    · exact (hclass.trans ((keeps_refresh cfg _ c).trans (keeps_sendAck _ c f.seq ans))).view
    · exact (hclass.trans ((keeps_refresh cfg _ c).trans (keeps_processEventBatch f))).view
    · exact hclass.view

theorem consistent_process (h : Consistent s.agents) (i : Input) :
    Consistent (process cfg s c conn ans i).1.agents := by
  cases i with
  | syslog text => exact (keeps_processSyslogLines text).consistent h
  | frame f =>
    rw [process, processFrame]
    split_ifs
    · exact consistent_processHello (s := s.setConn c _) h f
    · exact ((keeps_refresh cfg _ c).trans (keeps_sendAck _ c f.seq ans)).consistent h
    · exact ((keeps_refresh cfg _ c).trans (keeps_processEventBatch f)).consistent h
    · exact h

/-- **What the end of a connection does.** -/
theorem view_connDel (cfg : Config) (s : State) (c : ℕ) :
    (connDel cfg s c).view = s.view.leave c (s.agentKey c) := by
  have hgroup : ∀ c', ((s.conns.erase c).get c').bind (·.agentKey) =
      Function.update s.agentKey c none c' := by
    intro c'
    rw [Collection.get_erase]
    by_cases hc : c' = c
    · rw [if_pos hc, hc, Function.update_self, Option.bind_none]
    · rw [if_neg hc, Function.update_of_ne hc, State.agentKey]
  rw [connDel]
  cases hkey : s.agentKey c with
  | none =>
    refine congrArg₂ Occupancy.State.mk (funext hgroup) (funext fun a => propext ?_)
    exact (and_iff_left (by simp)).symm
  | some id =>
    refine congrArg₂ Occupancy.State.mk (funext hgroup) (funext fun a => propext ?_)
    refine (connected_markDisconnected id a).trans (and_congr_right fun _ => ?_)
    rw [Ne, Ne, Option.some.injEq, eq_comm]

theorem agentKey_connDel (cfg : Config) (s : State) (c c' : ℕ) :
    (connDel cfg s c).agentKey c' = if c' = c then none else s.agentKey c' := by
  have hview := congrFun (congrArg Occupancy.State.group (view_connDel cfg s c)) c'
  refine hview.trans ?_
  show Function.update s.agentKey c none c' = _
  rw [Function.update_apply]

theorem consistent_connDel (h : Consistent s.agents) : Consistent (connDel cfg s c).agents := by
  rw [connDel]
  cases s.agentKey c with
  | none => exact h
  | some id => exact consistent_markDisconnected h id

end Handlers

/-! ### Runs -/

/-- Whether a connection goes on after an input. -/
def Input.survives (ans : Answers) : Input → Bool
  | .frame f =>
    if f.msgType = wzcpMsgHello then (parseHello f.body).isSome && ans.ack
    else if f.msgType = wzcpMsgHeartbeat then ans.ack
    else if f.msgType = wzcpMsgEventBatch then
      (parseEventBatch f.body).any fun events => ans.encodes events.length && ans.ack
    else true
  | .syslog text => ans.encodes (syslogLines text).length

/-- No connection gives up an agent that has no other one, and none takes an agent offline that
has another one. -/
def Careful (s : State) : Event → Prop
  | .input c i ans =>
    (∀ a, i.announced = some a →
      ∀ b, s.agentKey c = some b → b ≠ a → s.BoundElsewhere c b) ∧
    (i.survives ans = false →
      ∀ a, i.announced.or (s.agentKey c) = some a → ¬s.BoundElsewhere c a)
  | .close c => ∀ a, s.agentKey c = some a → ¬s.BoundElsewhere c a
  | _ => True

section Runs

variable {cfg : Config} {s s' : State} {c : ℕ} {conn : Conn} {ans : Answers}

theorem snd_sendAck (seq : UInt64) : (s.sendAck c seq ans).2 = ans.ack := by
  rw [State.sendAck]
  split_ifs with hack
  · exact hack.symm
  · exact (Bool.eq_false_iff.mpr hack).symm

theorem snd_processFrame (f : Frame) :
    (processFrame cfg s c conn f ans).2 = (Input.frame f).survives ans := by
  rw [processFrame, Input.survives]
  split_ifs
  · rw [processHello]
    cases parseHello f.body with
    | none => rfl
    | some hello => exact snd_sendAck f.seq
  · exact snd_sendAck f.seq
  · rw [processEventBatch]
    cases parseEventBatch f.body with
    | none => rfl
    | some events =>
      rw [Option.any_some]
      dsimp only
      split_ifs with hencodes
      · rw [hencodes, Bool.true_and]
        exact snd_sendAck f.seq
      · rw [Bool.eq_false_iff.mpr hencodes, Bool.false_and]
  · rfl

theorem snd_process (i : Input) : (process cfg s c conn ans i).2 = i.survives ans := by
  cases i with
  | syslog text =>
    rw [process, processSyslogLines, Input.survives]
    split_ifs with hencodes
    · exact hencodes.symm
    · exact (Bool.eq_false_iff.mpr hencodes).symm
  | frame f => exact snd_processFrame f

/-- What an input is: it is handled, and the connection ends if that failed. -/
theorem step_input {i : Input} (h : step cfg s (.input c i ans) = some s') :
    ∃ conn, s.conns.get c = some conn ∧
      s' = if i.survives ans then (process cfg s c conn ans i).1
        else connDel cfg (process cfg s c conn ans i).1 c := by
  rw [step] at h
  split at h
  · exact absurd h (by simp)
  · next conn hget =>
    refine ⟨conn, hget, ?_⟩
    rw [← @snd_process cfg s c conn ans i]
    exact (Option.some.inj h).symm

theorem step_close (h : step cfg s (.close c) = some s') : s' = connDel cfg s c := by
  rw [step] at h
  split at h
  · exact absurd h (by simp)
  · exact (Option.some.inj h).symm

theorem consistent_step {ev : Event} (h : Consistent s.agents) (hstep : step cfg s ev = some s') :
    Consistent s'.agents := by
  cases ev with
  | accept =>
    obtain rfl := Option.some.inj hstep
    exact h
  | wait seconds =>
    obtain rfl := Option.some.inj hstep
    exact h
  | close c =>
    obtain rfl := step_close hstep
    exact consistent_connDel h
  | input c i ans =>
    obtain ⟨conn, -, rfl⟩ := step_input hstep
    split_ifs
    · exact consistent_process h i
    · exact consistent_connDel (consistent_process h i)

/-- A connection that ends after an input: the agent it was bound to last loses its flag. -/
theorem leave_process (hget : s.conns.get c = some conn) (i : Input) :
    (connDel cfg (process cfg s c conn ans i).1 c).view =
      s.view.leave c (i.announced.or (s.agentKey c)) := by
  have hview := @view_process cfg s c conn ans hget i
  rw [view_connDel]
  show (process cfg s c conn ans i).1.view.leave c ((process cfg s c conn ans i).1.view.group c) = _
  rw [hview]
  cases i.announced with
  | none => rfl
  | some a =>
    show (s.view.join c a).leave c (Function.update s.agentKey c (some a) c) = _
    rw [Function.update_self]
    exact s.view.leave_join c a

/-- **A step keeps the table right exactly if it is careful.** -/
theorem right_step_iff {ev : Event} (h : s.view.Right) (hstep : step cfg s ev = some s') :
    s'.view.Right ↔ Careful s ev := by
  cases ev with
  | accept =>
    obtain rfl := Option.some.inj hstep
    refine iff_of_true ?_ trivial
    have hview : State.view { s with conns := s.conns.insert {} } = s.view :=
      view_eq (agentKey_accept s) fun a => Iff.rfl
    exact hview ▸ h
  | wait seconds =>
    obtain rfl := Option.some.inj hstep
    exact iff_of_true h trivial
  | close c =>
    obtain rfl := step_close hstep
    rw [view_connDel, Occupancy.State.right_leave_iff h]
    refine forall_congr' fun a => and_iff_right ?_
    exact fun hkey hne => absurd hkey hne
  | input c i ans =>
    obtain ⟨conn, hget, rfl⟩ := step_input hstep
    cases hsurvives : i.survives ans with
    | true =>
      -- the connection goes on: it joins the agent it announces, if any
      rw [if_pos rfl, view_process hget, Careful, and_iff_left (by simp [hsurvives])]
      cases i.announced with
      | none => exact iff_of_true h fun a ha => absurd ha (by simp)
      | some a =>
        rw [Option.elim_some, Occupancy.State.right_join_iff h]
        simp only [Option.some.injEq, forall_eq']
        rfl
    | false =>
      -- it ends after the input: the agent it leaves is the one announced, or else the old one
      rw [if_neg (by simp), leave_process hget, Occupancy.State.right_leave_iff h, Careful,
        forall_and]
      refine and_congr ?_ ⟨fun hleave _ => hleave, fun hleave => hleave hsurvives⟩
      cases i.announced with
      | none => exact iff_of_true (fun b hkey hne => absurd hkey hne) fun a ha => absurd ha (by simp)
      | some a =>
        constructor
        · intro hjoin a' ha' b hkey hne
          refine hjoin b hkey fun hab => hne ?_
          exact Option.some.inj (hab.symm.trans ha')
        · intro hjoin b hkey hne
          refine hjoin a rfl b hkey fun hab => hne ?_
          rw [hab, Option.some_or]

theorem consistent_of_reach {ok : History State Event → State → Event → Prop} {now : ℤ}
    {hist : History State Event} (h : Reach (step cfg) ok (.init now) hist s) :
    Consistent s.agents :=
  @Reach.invariant _ _ (step cfg) ok (.init now) (fun _ s => Consistent s.agents) consistent_empty
    (fun hinv _ hstep => consistent_step hinv hstep) hist s h

theorem right_init (now : ℤ) : (State.init now).view.Right := by
  intro a
  refine iff_of_false ?_ ?_
  · rintro ⟨st, hst, -⟩
    exact absurd ((Table.find_empty a).symm.trans hst) (by simp)
  · rintro ⟨c, hc⟩
    exact absurd hc (by simp [State.view, State.agentKey, State.init, Collection.get,
      Collection.empty])

/-- **The table is right in every state of a run exactly if every event is careful.** -/
theorem tableRight_iff_careful {now : ℤ} {hist : History State Event}
    (h : Reach (step cfg) Any (.init now) hist s) :
    (TableRight s ∧ ∀ p ∈ hist, TableRight p.1) ↔ ∀ p ∈ hist, Careful p.1 p.2 := by
  induction h with
  | start =>
    refine iff_of_true ⟨?_, fun p hp => absurd hp List.not_mem_nil⟩
      fun p hp => absurd hp List.not_mem_nil
    exact (tableRight_iff consistent_empty).mpr (right_init now)
  | @next hist s s' ev hreach _ hstep ih =>
    have hbefore : Consistent s.agents := consistent_of_reach hreach
    have hafter : TableRight s' ↔ s'.view.Right := tableRight_iff (consistent_step hbefore hstep)
    rw [List.forall_mem_cons, List.forall_mem_cons, ih, hafter]
    refine and_congr_left fun hcareful => right_step_iff ?_ hstep
    exact (tableRight_iff hbefore).mp (ih.mpr hcareful).1

end Runs

/-! ### Two runs -/

/-- The HELLO of an agent with an ID of one byte. -/
def helloOf (id : UInt8) : Input :=
  .frame { msgType := wzcpMsgHello, seq := 1, body := [0, 1, 0, 0, 0, 1, id, 0, 0, 0, 0] }

theorem tableRight_iff_careful_hello :
    ∃ hist s, replay (step {}) [] (.init 0) [.accept, .input 0 (helloOf 0x61) {}] = some (hist, s) ∧
      s.agentKey 0 = some [0x61] ∧ TableRight s := by
  obtain ⟨hist, s, s₀, s₁, hrun, hkey, hhist, hbefore⟩ : ∃ hist s s₀ s₁,
      replay (step {}) [] (.init 0) [.accept, .input 0 (helloOf 0x61) {}] = some (hist, s) ∧
        s.agentKey 0 = some [0x61] ∧
        hist = [(s₁, .input 0 (helloOf 0x61) {}), (s₀, .accept)] ∧ s₁.agentKey 0 = none :=
    ⟨_, _, _, _, rfl, rfl, rfl, rfl⟩
  refine ⟨hist, s, hrun, hkey, ((tableRight_iff_careful (Reach.start.replay hrun)).mpr ?_).1⟩
  rw [hhist, List.forall_mem_cons, List.forall_mem_singleton]
  refine ⟨⟨fun a _ b hb => ?_, fun hfails => ?_⟩, trivial⟩
  · exact absurd (hbefore.symm.trans hb) (by simp)
  · have hsurvives : (helloOf 0x61).survives {} = true := by decide
    exact absurd (hsurvives.symm.trans hfails) (by simp)

/-- An agent reconnects before its first connection closes, and is taken offline when that
happens. -/
theorem not_tableRight :
    ¬∀ (cfg : Config) (now : ℤ) (hist : History State Event) (s : State),
      Reach (step cfg) Any (.init now) hist s → TableRight s := by
  intro h
  obtain ⟨hist, s, hrun, hkey, hfind⟩ : ∃ hist s,
      replay (step {}) [] (.init 0) [.accept, .accept, .input 0 (helloOf 0x61) {},
        .input 1 (helloOf 0x61) {}, .close 0] = some (hist, s) ∧
        s.agentKey 1 = some [0x61] ∧
        (s.agents.find [0x61]).map (·.isConnected) = some false :=
    ⟨_, _, rfl, rfl, rfl⟩
  obtain ⟨st, hst, hconn⟩ :=
    (h {} 0 hist s (Reach.start.replay hrun) [0x61]).1.mpr ⟨1, hkey⟩
  rw [hst, Option.map_some, hconn] at hfind
  exact absurd hfind (by simp)

end Gateway

end Xsiam
