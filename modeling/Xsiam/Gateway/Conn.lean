import Xsiam.Gateway.Wire
import Xsiam.Lib.Collection
import Xsiam.Lib.Run

/-!
# Connections

`xsiam_agent_conn.c`: a connection is accepted, reads frames or lines of text, and is torn
down when it closes or when an input cannot be handled. A HELLO binds it to an agent, in the
table of agents and in the connection itself (`Xsiam.Gateway.Conn`), and what it reads from then
on refreshes that agent.

A step of the machine is what the event loop does for one message: the loop runs handlers
one after the other and never two at once. A handler that fails tears its connection down in
the same step.
-/

namespace Xsiam

namespace Gateway

open Go (str)

/-! ### States -/

/-- `xsiam_agent_conn`, under the number of its session -/
structure Conn where
  agentKey : Option CString := none
  protocolTag : CString := str "unknown"
  clientGroup : CString := str "unknown"
deriving DecidableEq

/-- What a record says of the frame it came in. -/
structure EventFields where
  agentID : UInt32
  frameSeq : UInt64
  eventID : ℕ
  kind : UInt8
deriving DecidableEq

/-- A record for the engine. -/
structure LogRecord where
  protocol : CString
  sessionID : CString
  sessionProtocol : CString
  clientGroup : CString
  event : Option EventFields
  log : List UInt8
deriving DecidableEq

/-- The plugin at work. -/
structure State where
  now : ℤ
  agents : AgentTable
  /-- The open connections. -/
  conns : Collection Conn
  /-- What was posted to the server, oldest first. -/
  posts : List Post
  /-- The records handed to the engine, a list for each time. -/
  handed : List (List LogRecord)
  /-- The sequence numbers acknowledged, with the connection. -/
  acks : List (ℕ × UInt64)

/-- The plugin at its start. -/
def State.init (now : ℤ) : State := ⟨now, .empty, .empty, [], [], []⟩

/-- How the calls of a handler go. -/
structure Answers where
  /-- Whether the acknowledgement can be written. -/
  ack : Bool := true
  /-- Whether a record can be encoded, by its place. -/
  encode : ℕ → Bool := fun _ => true

/-- The records of a list can all be encoded. -/
def Answers.encodes (ans : Answers) (count : ℕ) : Bool := (List.range count).all ans.encode

/-! ### Handlers

A handler returns whether its connection goes on. -/

/-- `session_id`, of the number of the session -/
def sessionID (c : ℕ) : CString := str ("session-" ++ toString (c + 1))

/-- `conn_set_classification` -/
def Conn.classify (conn : Conn) (protocolTag clientGroup : CString) : Conn :=
  { conn with protocolTag, clientGroup }

/-- A connection is changed. -/
def State.setConn (s : State) (c : ℕ) (f : Conn → Conn) : State :=
  { s with conns := s.conns.updateWhere (fun d => d.1 = c) f }

/-- The agent that a connection is bound to. -/
def State.agentKey (s : State) (c : ℕ) : Option CString := (s.conns.get c).bind (·.agentKey)

/-- `send_ack` -/
def State.sendAck (s : State) (c : ℕ) (seq : UInt64) (ans : Answers) : State × Bool :=
  if ans.ack then ({ s with acks := s.acks ++ [(c, seq)] }, true) else (s, false)

/-- A change of the table, with what is posted. -/
def State.mark (s : State) (marked : AgentTable × List Post) : State :=
  { s with agents := marked.1, posts := s.posts ++ marked.2 }

/-- Records are handed to the engine, if there are any. -/
def State.hand (s : State) (records : List LogRecord) : State :=
  if records = [] then s else { s with handed := s.handed ++ [records] }

/-- `agent_state_mark_heartbeat`, for the agent of a connection that has one -/
def State.refresh (cfg : Config) (s : State) (c : ℕ) : State :=
  match s.agentKey c with
  | none => s
  | some id => s.mark (markHeartbeat cfg s.now s.agents id)

/-- `process_hello` -/
def processHello (cfg : Config) (s : State) (c : ℕ) (f : Frame) (ans : Answers) : State × Bool :=
  match parseHello f.body with
  | none => (s, false)
  | some hello =>
    let bind (conn : Conn) : Conn :=
      if hello.agentID = [] then conn else { conn with agentKey := some hello.agentID }
    let s := (s.mark (markSeen cfg s.now s.agents hello)).setConn c fun conn =>
      (bind conn).classify (str "agent_wzcp") (str "agent")
    s.sendAck c f.seq ans

/-- The record of an event, as `append_record` encodes it. -/
def eventLogRecord (c : ℕ) (conn : Conn) (f : Frame) (ev : EventRecord) : LogRecord where
  protocol := str "wzcp"
  sessionID := sessionID c
  sessionProtocol := conn.protocolTag
  clientGroup := conn.clientGroup
  event := some ⟨f.agentID, f.seq, ev.eventID, ev.kind⟩
  log := ev.payload

/-- `process_event_batch` -/
def processEventBatch (s : State) (c : ℕ) (conn : Conn) (f : Frame) (ans : Answers) :
    State × Bool :=
  match parseEventBatch f.body with
  | none => (s, false)
  | some events =>
    if ans.encodes events.length then
      (s.hand (events.map (eventLogRecord c conn f))).sendAck c f.seq ans
    else (s, false)

/-- The record of a line, as `append_syslog_record` encodes it. -/
def syslogLogRecord (c : ℕ) (conn : Conn) (line : List UInt8) : LogRecord where
  protocol := str "syslog"
  sessionID := sessionID c
  sessionProtocol := conn.protocolTag
  clientGroup := conn.clientGroup
  event := none
  log := line

/-- `process_syslog_lines` -/
def processSyslogLines (s : State) (c : ℕ) (conn : Conn) (text : List UInt8) (ans : Answers) :
    State × Bool :=
  let lines := syslogLines text
  if ans.encodes lines.length then (s.hand (lines.map (syslogLogRecord c conn)), true)
  else (s, false)

/-- One round of the loop of `process_frames`. -/
def processFrame (cfg : Config) (s : State) (c : ℕ) (conn : Conn) (f : Frame) (ans : Answers) :
    State × Bool :=
  if f.msgType = wzcpMsgHello then processHello cfg s c f ans
  else if f.msgType = wzcpMsgHeartbeat then (s.refresh cfg c).sendAck c f.seq ans
  else if f.msgType = wzcpMsgEventBatch then processEventBatch (s.refresh cfg c) c conn f ans
  else (s, true)

/-- An input handled, on a connection that is classified by it. -/
def process (cfg : Config) (s : State) (c : ℕ) (conn : Conn) (ans : Answers) :
    Input → State × Bool
  | .frame f =>
    let conn := conn.classify (str "agent_wzcp") (str "agent")
    processFrame cfg (s.setConn c fun _ => conn) c conn f ans
  | .syslog text =>
    let conn := conn.classify (str "syslog") (str "device")
    processSyslogLines (s.setConn c fun _ => conn) c conn text ans

/-- `conn_del` -/
def connDel (cfg : Config) (s : State) (c : ℕ) : State :=
  let s :=
    match s.agentKey c with
    | none => s
    | some id => s.mark (markDisconnected cfg s.now s.agents id)
  { s with conns := s.conns.erase c }

/-! ### The machine -/

/-- The events of the machine. -/
inductive Event where
  | accept
  | input (c : ℕ) (i : Input) (ans : Answers)
  | close (c : ℕ)
  | wait (seconds : ℕ)

/-- One event. Only an open connection reads and closes. -/
def step (cfg : Config) (s : State) : Event → Option State
  | .accept => some { s with conns := s.conns.insert {} }
  | .input c i ans =>
    match s.conns.get c with
    | none => none
    | some conn =>
      let r := process cfg s c conn ans i
      some (if r.2 then r.1 else connDel cfg r.1 c)
  | .close c =>
    match s.conns.get c with
    | none => none
    | some _ => some (connDel cfg s c)
  | .wait seconds => some { s with now := s.now + seconds }

end Gateway

end Xsiam
