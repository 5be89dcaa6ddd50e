import Xsiam.Gateway.Bound

/-!
# States that differ in their times only

Handlers read the clock, and records are handed to the engine in lists for each time. Two states
are alike (`Xsiam.Gateway.Alike`) if they differ only in the times that are noted of agents, with what
is decided by a time, and in how records are grouped: their connections are the same, they have
posted and acknowledged the same, and handed on the same records. What a message does to states
that are alike leaves them alike, at whatever times it is handled (`Xsiam.Gateway.Alike.take`).
-/

namespace Xsiam

namespace Gateway

open Go (str)

/-! ### The relation -/

/-- An agent without its times. Whether it is to be written to the database depends on them. -/
def timeless (st : Agent) : Agent :=
  { st with
    installedAt := 0
    connectedAt := 0
    lastHeartbeat := 0
    lastSeen := 0
    createdAt := 0
    updatedAt := 0
    dirty := false }

theorem timeless_agentID (st : Agent) : (timeless st).agentID = st.agentID := rfl

/-- Two states differ only in times, and in the grouping of records. -/
structure Alike (s s' : State) : Prop where
  agents : s.agents.rows.map timeless = s'.agents.rows.map timeless
  conns : ∀ d, s.conns.get d = s'.conns.get d
  posts : s.posts = s'.posts
  records : s.handed.flatten = s'.handed.flatten
  acks : s.acks = s'.acks

variable {cfg : Config} {s s' s'' : State} {c : ℕ} {conn : Conn}

namespace Alike

theorem refl (s : State) : Alike s s := ⟨rfl, fun _ => rfl, rfl, rfl, rfl⟩

theorem symm (h : Alike s s') : Alike s' s :=
  ⟨h.agents.symm, fun d => (h.conns d).symm, h.posts.symm, h.records.symm, h.acks.symm⟩

theorem trans (h : Alike s s') (h' : Alike s' s'') : Alike s s'' :=
  ⟨h.agents.trans h'.agents, fun d => (h.conns d).trans (h'.conns d), h.posts.trans h'.posts,
    h.records.trans h'.records, h.acks.trans h'.acks⟩

/-- The clock does not matter. -/
theorem tick (s : State) (now : ℤ) : Alike { s with now } s := ⟨rfl, fun _ => rfl, rfl, rfl, rfl⟩

theorem agentKey (h : Alike s s') (d : ℕ) : s.agentKey d = s'.agentKey d := by
  rw [State.agentKey, h.conns, State.agentKey]

/-! ### What the operations do to it -/

theorem setConn (h : Alike s s') (c : ℕ) (f : Conn → Conn) : Alike (s.setConn c f) (s'.setConn c f) := by
  refine ⟨h.agents, fun d => ?_, h.posts, h.records, h.acks⟩
  rw [State.setConn, Collection.get_updateWhere, State.setConn, Collection.get_updateWhere, h.conns]

theorem sendAck (h : Alike s s') (c : ℕ) (seq : UInt64) (ans : Answers) :
    Alike (s.sendAck c seq ans).1 (s'.sendAck c seq ans).1 := by
  rw [State.sendAck, State.sendAck]
  split_ifs
  · exact ⟨h.agents, h.conns, h.posts, h.records, congrArg (· ++ _) h.acks⟩
  · exact h

theorem hand (h : Alike s s') (records : List LogRecord) : Alike (s.hand records) (s'.hand records) := by
  rw [State.hand, State.hand]
  split_ifs
  · exact h
  · refine ⟨h.agents, h.conns, h.posts, ?_, h.acks⟩
    rw [List.flatten_append, List.flatten_append, h.records]

/-- A change of the table of agents. -/
theorem mark (h : Alike s s') {marked marked' : AgentTable × List Post}
    (hagents : marked.1.rows.map timeless = marked'.1.rows.map timeless)
    (hposts : marked.2 = marked'.2) : Alike (s.mark marked) (s'.mark marked') :=
  ⟨hagents, h.conns, congrArg₂ (· ++ ·) h.posts hposts, h.records, h.acks⟩

theorem markSeen (h : Alike s s') (now now' : ℤ) (hello : Hello) :
    Alike (s.mark (Gateway.markSeen cfg now s.agents hello))
      (s'.mark (Gateway.markSeen cfg now' s'.agents hello)) := by
  rw [Gateway.markSeen, Gateway.markSeen]
  split_ifs
  · exact h.mark h.agents rfl
  · refine h.mark (Table.map_rows_modify_eq timeless_agentID ?_ (seen_agentID now hello)
      (seen_agentID now' hello) fun st st' hst => ?_) rfl
    · exact Table.map_rows_add_eq timeless_agentID h.agents rfl
    · -- all that is not written over is no time
      cases st
      cases st'
      simp only [timeless, Agent.mk.injEq] at hst
      obtain ⟨rfl, rfl, rfl, rfl, rfl, rfl, rfl, rfl, rfl, rfl, -, -, -, -, -, -, rfl, -⟩ := hst
      rfl

theorem refresh (h : Alike s s') (c : ℕ) : Alike (s.refresh cfg c) (s'.refresh cfg c) := by
  rw [State.refresh, State.refresh, h.agentKey]
  cases s'.agentKey c with
  | none => exact h
  | some id =>
    have hfind := Table.map_find_eq timeless_agentID h.agents id
    show Alike (s.mark (markHeartbeat cfg s.now s.agents id)) (s'.mark (markHeartbeat cfg s'.now s'.agents id))
    rw [markHeartbeat, markHeartbeat]
    cases hid : s.agents.find id with
    | none =>
      rw [hid, Option.map_none] at hfind
      rw [Option.map_eq_none_iff.mp hfind.symm]
      exact h.mark h.agents rfl
    | some st =>
      rw [hid, Option.map_some] at hfind
      obtain ⟨st', hid', -⟩ := Option.map_eq_some_iff.mp hfind.symm
      rw [hid']
      refine h.mark (Table.map_rows_modify_eq timeless_agentID h.agents (refreshed_agentID cfg _)
        (refreshed_agentID cfg _) fun st st' hst => ?_) rfl
      exact (show timeless (refreshed cfg s.now st) = timeless st from rfl).trans
        (hst.trans (show timeless st' = timeless (refreshed cfg s'.now st') from rfl))

theorem markDisconnected (h : Alike s s') (now now' : ℤ) (id : CString) :
    Alike (s.mark (Gateway.markDisconnected cfg now s.agents id))
      (s'.mark (Gateway.markDisconnected cfg now' s'.agents id)) := by
  have hfind := Table.map_find_eq timeless_agentID h.agents id
  rw [Gateway.markDisconnected, Gateway.markDisconnected]
  cases hid : s.agents.find id with
  | none =>
    rw [hid, Option.map_none] at hfind
    rw [Option.map_eq_none_iff.mp hfind.symm]
    exact h.mark h.agents rfl
  | some st =>
    rw [hid, Option.map_some] at hfind
    obtain ⟨st', hid', hst'⟩ := Option.map_eq_some_iff.mp hfind.symm
    have hconnected : st'.isConnected = st.isConnected :=
      @congrArg _ _ (timeless st') (timeless st) Agent.isConnected hst'
    rw [hid']
    dsimp only
    rw [hconnected]
    split_ifs
    · refine h.mark (Table.map_rows_modify_eq timeless_agentID h.agents (disconnected_agentID _)
        (disconnected_agentID _) fun st st' hst => ?_) rfl
      cases st
      cases st'
      simp only [timeless, Agent.mk.injEq] at hst
      obtain ⟨rfl, rfl, rfl, rfl, rfl, rfl, rfl, rfl, rfl, rfl, -, -, -, -, -, -, rfl, -⟩ := hst
      rfl
    · exact h.mark h.agents rfl

theorem connDel (h : Alike s s') (c : ℕ) : Alike (connDel cfg s c) (connDel cfg s' c) := by
  have herase : ∀ {s s' : State}, Alike s s' →
      Alike { s with conns := s.conns.erase c } { s' with conns := s'.conns.erase c } := by
    intro s s' h
    refine ⟨h.agents, fun d => ?_, h.posts, h.records, h.acks⟩
    show (s.conns.erase c).get d = (s'.conns.erase c).get d
    rw [Collection.get_erase, Collection.get_erase, h.conns]
  rw [Gateway.connDel, Gateway.connDel, h.agentKey]
  cases s'.agentKey c with
  | none => exact herase h
  | some id => exact herase (h.markDisconnected s.now s'.now id)

/-! ### What the handlers do to it -/

theorem processHello (h : Alike s s') (c : ℕ) (f : Frame) (ans : Answers) :
    Alike (processHello cfg s c f ans).1 (processHello cfg s' c f ans).1 := by
  rw [Gateway.processHello, Gateway.processHello]
  cases parseHello f.body with
  | none => exact h
  | some hello => exact ((h.markSeen s.now s'.now hello).setConn c _).sendAck c f.seq ans

theorem processEventBatch (h : Alike s s') (c : ℕ) (conn : Conn) (f : Frame) (ans : Answers) :
    Alike (processEventBatch s c conn f ans).1 (processEventBatch s' c conn f ans).1 := by
  rw [Gateway.processEventBatch, Gateway.processEventBatch]
  cases parseEventBatch f.body with
  | none => exact h
  | some events =>
    dsimp only
    split_ifs
    · exact (h.hand _).sendAck c f.seq ans
    · exact h

theorem processFrame (h : Alike s s') (c : ℕ) (conn : Conn) (f : Frame) (ans : Answers) :
    Alike (processFrame cfg s c conn f ans).1 (processFrame cfg s' c conn f ans).1 := by
  rw [Gateway.processFrame, Gateway.processFrame]
  split_ifs
  · exact h.processHello c f ans
  · exact (h.refresh c).sendAck c f.seq ans
  · exact (h.refresh c).processEventBatch c conn f ans
  · exact h

theorem process (h : Alike s s') (c : ℕ) (conn : Conn) (ans : Answers) (i : Input) :
    Alike (process cfg s c conn ans i).1 (process cfg s' c conn ans i).1 := by
  cases i with
  | frame f => exact (h.setConn c _).processFrame c _ f ans
  | syslog text =>
    rw [Gateway.process, Gateway.process, processSyslogLines, processSyslogLines]
    split_ifs
    · exact (h.setConn c _).hand _
    · exact h.setConn c _

end Alike

/-! ### Messages handled one after the other -/

/-- A message handled on a connection, where all calls succeed. -/
def State.take (cfg : Config) (c : ℕ) (s : State) (i : Input) : State :=
  match s.conns.get c with
  | none => s
  | some conn => (process cfg s c conn {} i).1

/-- Some messages handled. -/
def State.takeAll (cfg : Config) (c : ℕ) (s : State) (is : List Input) : State :=
  is.foldl (State.take cfg c) s

theorem Alike.take (h : Alike s s') (c : ℕ) (i : Input) : Alike (s.take cfg c i) (s'.take cfg c i) := by
  rw [State.take, State.take, h.conns]
  cases s'.conns.get c with
  | none => exact h
  | some conn => exact h.process c conn {} i

theorem Alike.takeAll (is : List Input) : ∀ {s s' : State}, Alike s s' →
    Alike (s.takeAll cfg c is) (s'.takeAll cfg c is) := by
  induction is with
  | nil => exact fun h => h
  | cons i is ih => exact fun h => ih (h.take c i)

end Gateway

end Xsiam
