import Xsiam.Gateway.Alike
import Xsiam.Gateway.Messages

/-!
# The classification of a connection

Every message classifies its connection, and so does a buffer that is recognised, before its
messages are handled. What a connection was classified as before has no say in what a message does
(`Xsiam.Gateway.take_setConn_classify`), nor in what a buffer makes of it
(`Xsiam.Gateway.settle_settle`).
-/

namespace Xsiam

namespace Gateway

open Go (str)

variable {cfg : Config} {s s' : State} {c : ℕ} {conn : Conn}

/-! ### Connections and what handlers make of them -/

/-- What the classification of a connection is by a message. -/
def Input.tags : Input → CString × CString
  | .frame _ => (str "agent_wzcp", str "agent")
  | .syslog _ => (str "syslog", str "device")

/-- A connection is classified. -/
def Conn.Is (conn : Conn) (tags : CString × CString) : Prop :=
  conn.protocolTag = tags.1 ∧ conn.clientGroup = tags.2

theorem Conn.Is.classify {tags : CString × CString} (h : conn.Is tags) :
    conn.classify tags.1 tags.2 = conn := by
  obtain ⟨agentKey, protocolTag, clientGroup⟩ := conn
  obtain ⟨rfl, rfl⟩ := h
  rfl

/-- A connection written in one of two ways that are the same for it. -/
theorem alike_setConn_congr (hget : s.conns.get c = some conn) {f g : Conn → Conn} (h : f conn = g conn) :
    Alike (s.setConn c f) (s.setConn c g) := by
  refine ⟨rfl, fun d => ?_, rfl, rfl, rfl⟩
  rw [State.setConn, Collection.get_updateWhere, State.setConn, Collection.get_updateWhere]
  split_ifs with hd
  · rw [hd, hget, Option.map_some, Option.map_some, h]
  · rfl

/-- A connection is classified already. -/
theorem alike_setConn (hget : s.conns.get c = some conn) {f : Conn → Conn} (hf : f conn = conn) :
    Alike (s.setConn c f) s := by
  refine ⟨rfl, fun d => ?_, rfl, rfl, rfl⟩
  rw [State.setConn, Collection.get_updateWhere]
  split_ifs with hd
  · rw [hd, hget, Option.map_some, hf]
  · rfl

/-- A connection written over. -/
theorem alike_setConn_setConn (hget : s.conns.get c = some conn) {f g h : Conn → Conn}
    (heq : g (f conn) = h conn) : Alike ((s.setConn c f).setConn c g) (s.setConn c h) := by
  refine ⟨rfl, fun d => ?_, rfl, rfl, rfl⟩
  rw [State.setConn, Collection.get_updateWhere, State.setConn, Collection.get_updateWhere,
    State.setConn, Collection.get_updateWhere]
  split_ifs with hd
  · rw [hd, hget, Option.map_some, Option.map_some, Option.map_some, heq]
  · rfl

theorem conns_refresh : (s.refresh cfg c).conns = s.conns := by
  rw [State.refresh]
  split <;> rfl

theorem conns_sendAck (seq : UInt64) (ans : Answers) : (s.sendAck c seq ans).1.conns = s.conns := by
  rw [State.sendAck]
  split_ifs <;> rfl

theorem conns_hand (records : List LogRecord) : (s.hand records).conns = s.conns := by
  rw [State.hand]
  split_ifs <;> rfl

theorem get_processFrame (hget : s.conns.get c = some conn) {f : Frame}
    (hconn : conn.Is (Input.frame f).tags) (ans : Answers) :
    ∃ conn', (processFrame cfg s c conn f ans).1.conns.get c = some conn' ∧
      conn'.Is (Input.frame f).tags := by
  rw [processFrame]
  split_ifs
  · rw [processHello]
    split
    · exact ⟨conn, hget, hconn⟩
    · next hello _ =>
      rw [conns_sendAck]
      exact ⟨_, get_setConn _ hget, rfl, rfl⟩
  · rw [conns_sendAck, conns_refresh]
    exact ⟨conn, hget, hconn⟩
  · rw [processEventBatch]
    split
    · rw [conns_refresh]
      exact ⟨conn, hget, hconn⟩
    · split_ifs
      · rw [conns_sendAck, conns_hand, conns_refresh]
        exact ⟨conn, hget, hconn⟩
      · rw [conns_refresh]
        exact ⟨conn, hget, hconn⟩
  · exact ⟨conn, hget, hconn⟩

/-- A message classifies its connection. -/
theorem get_process (hget : s.conns.get c = some conn) (ans : Answers) (i : Input) :
    ∃ conn', (process cfg s c conn ans i).1.conns.get c = some conn' ∧ conn'.Is i.tags := by
  cases i with
  | frame f => exact get_processFrame (get_setConn _ hget) ⟨rfl, rfl⟩ ans
  | syslog text =>
    rw [process, processSyslogLines]
    split_ifs
    · rw [conns_hand]
      exact ⟨_, get_setConn _ hget, rfl, rfl⟩
    · exact ⟨_, get_setConn _ hget, rfl, rfl⟩

theorem get_take (hget : s.conns.get c = some conn) (i : Input) :
    ∃ conn', (s.take cfg c i).conns.get c = some conn' ∧ conn'.Is i.tags := by
  rw [State.take, hget]
  exact get_process hget {} i

theorem get_takeAll (is : List Input) : ∀ {s : State} {conn : Conn}, s.conns.get c = some conn →
    ∃ conn', (s.takeAll cfg c is).conns.get c = some conn' := by
  induction is with
  | nil => exact fun {s conn} h => ⟨conn, h⟩
  | cons i is ih =>
    intro s conn hget
    obtain ⟨conn', hget', -⟩ := @get_take cfg s c conn hget i
    exact ih hget'

/-- How a connection was classified does not matter to a message. -/
theorem take_setConn_classify (hget : s.conns.get c = some conn) (tags : CString × CString)
    (i : Input) : Alike ((s.setConn c fun conn => conn.classify tags.1 tags.2).take cfg c i)
      (s.take cfg c i) := by
  rw [State.take, get_setConn _ hget, State.take, hget]
  cases i with
  | frame f =>
    exact (alike_setConn_setConn hget rfl).processFrame c (conn.classify (str "agent_wzcp") (str "agent")) f {}
  | syslog text =>
    have hsame := @alike_setConn_setConn s c conn hget (fun conn => conn.classify tags.1 tags.2)
      (fun _ => conn.classify (str "syslog") (str "device")) (fun _ => conn.classify (str "syslog") (str "device"))
      rfl
    show Alike (processSyslogLines _ c (conn.classify (str "syslog") (str "device")) text {}).1
      (processSyslogLines _ c (conn.classify (str "syslog") (str "device")) text {}).1
    rw [processSyslogLines, processSyslogLines]
    split_ifs
    · exact hsame.hand _
    · exact hsame

/-! ### Classification by a buffer -/

/-- What a buffer is recognised as. -/
def tagsOf (data : List UInt8) : Option (CString × CString) :=
  if looksLikeWzcp data then some (str "agent_wzcp", str "agent")
  else if looksLikeSyslog data then some (str "syslog", str "device")
  else none

/-- A connection classified by its buffer, if that is recognised. -/
def State.settle (s : State) (c : ℕ) (data : List UInt8) : State :=
  match tagsOf data with
  | none => s
  | some tags => s.setConn c fun conn => conn.classify tags.1 tags.2

theorem Alike.settle (h : Alike s s') (c : ℕ) (data : List UInt8) :
    Alike (s.settle c data) (s'.settle c data) := by
  rw [State.settle, State.settle]
  cases tagsOf data with
  | none => exact h
  | some tags => exact h.setConn c _

/-- More of what was recognised is recognised as the same. -/
theorem tagsOf_append {data : List UInt8} {tags : CString × CString} (h : tagsOf data = some tags)
    (v : List UInt8) : tagsOf (data ++ v) = some tags := by
  rw [tagsOf] at h
  split_ifs at h with hwzcp hsyslog
  · rw [tagsOf, looksLikeWzcp_append (looksLikeWzcp_iff.mp hwzcp).1, if_pos hwzcp, h]
  · have hsyslog' := looksLikeSyslog_append hsyslog v
    rw [tagsOf, looksLikeWzcp_eq_false hsyslog', if_neg (by simp), if_pos hsyslog', h]

/-- A buffer that was recognised, and is recognised again with more behind it. -/
theorem settle_settle (hget : s.conns.get c = some conn) (data v : List UInt8) :
    Alike ((s.settle c data).settle c (data ++ v)) (s.settle c (data ++ v)) := by
  rw [State.settle, State.settle, State.settle]
  cases htags : tagsOf data with
  | none => exact .refl _
  | some tags =>
    rw [tagsOf_append htags]
    exact alike_setConn_setConn hget rfl

/-- What comes after the buffer was recognised. -/
theorem takeAll_settle (hget : s.conns.get c = some conn) (data : List UInt8) (i : Input)
    (is : List Input) :
    Alike ((s.settle c data).takeAll cfg c (i :: is)) (s.takeAll cfg c (i :: is)) := by
  rw [State.settle]
  cases tagsOf data with
  | none => exact .refl _
  | some tags => exact (take_setConn_classify hget tags i).takeAll is

/-- Classified by a buffer as it is by the last message. -/
theorem settle_of_is (hget : s.conns.get c = some conn) {tags : CString × CString} (hconn : conn.Is tags)
    {data : List UInt8} (h : ∀ tags', tagsOf data = some tags' → tags' = tags) :
    Alike s (s.settle c data) := by
  rw [State.settle]
  cases htags : tagsOf data with
  | none => exact .refl _
  | some tags' =>
    rw [h tags' htags]
    exact (alike_setConn hget hconn.classify).symm

end Gateway

end Xsiam
