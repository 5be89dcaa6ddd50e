import Xsiam.Gateway.Conn

/-!
# What every step of the gateway keeps

The handlers change the state of the plugin by a few operations only: a connection is
accepted, classified or torn down, a HELLO is entered, an agent is refreshed, records are handed
on, a frame is acknowledged, time passes. What each of these keeps (`Xsiam.Gateway.Kept`) holds in
every state of a run (`Xsiam.Gateway.Kept.reach`).
-/

namespace Xsiam

namespace Gateway

open Run

/-- A connection as a HELLO leaves it. -/
def Conn.greeted (hello : Hello) (conn : Conn) : Conn :=
  (if hello.agentID = [] then conn else { conn with agentKey := some hello.agentID }).classify
    (Go.str "agent_wzcp") (Go.str "agent")

/-- What a HELLO that is accepted makes of the state. -/
def State.greet (cfg : Config) (s : State) (c : ℕ) (hello : Hello) : State :=
  (s.mark (markSeen cfg s.now s.agents hello)).setConn c (Conn.greeted hello)

/-- A property of states that every operation of the handlers keeps. -/
structure Kept (cfg : Config) (P : State → Prop) : Prop where
  accept : ∀ {s : State}, P s → P { s with conns := s.conns.insert {} }
  wait : ∀ {s : State} (seconds : ℕ), P s → P { s with now := s.now + seconds }
  classify : ∀ {s : State} {c : ℕ} {conn : Conn} (protocolTag clientGroup : CString),
    s.conns.get c = some conn → P s →
      P (s.setConn c fun _ => conn.classify protocolTag clientGroup)
  greet : ∀ {s : State} {body : List UInt8} {hello : Hello} (c : ℕ),
    parseHello body = some hello → P s → P (s.greet cfg c hello)
  refresh : ∀ {s : State} (c : ℕ), P s → P (s.refresh cfg c)
  ack : ∀ {s : State} (c : ℕ) (seq : UInt64), P s → P { s with acks := s.acks ++ [(c, seq)] }
  hand : ∀ {s : State} (records : List LogRecord), P s →
    P { s with handed := s.handed ++ [records] }
  connDel : ∀ {s : State} (c : ℕ), P s → P (connDel cfg s c)

namespace Kept

variable {cfg : Config} {P : State → Prop} {s s' : State} {c : ℕ} {conn : Conn}

theorem sendAck (h : Kept cfg P) (hs : P s) (seq : UInt64) (ans : Answers) :
    P (s.sendAck c seq ans).1 := by
  rw [State.sendAck]
  split_ifs
  · exact h.ack c seq hs
  · exact hs

theorem handAll (h : Kept cfg P) (hs : P s) (records : List LogRecord) :
    P (s.hand records) := by
  rw [State.hand]
  split_ifs
  · exact hs
  · exact h.hand records hs

theorem processHello (h : Kept cfg P) (hs : P s) (f : Frame) (ans : Answers) :
    P (Gateway.processHello cfg s c f ans).1 := by
  rw [Gateway.processHello]
  split
  · exact hs
  · next hello hparse => exact h.sendAck (h.greet c hparse hs) f.seq ans

theorem processEventBatch (h : Kept cfg P) (hs : P s) (f : Frame) (ans : Answers) :
    P (Gateway.processEventBatch s c conn f ans).1 := by
  rw [Gateway.processEventBatch]
  split
  · exact hs
  · split_ifs
    · exact h.sendAck (h.handAll hs _) f.seq ans
    · exact hs

theorem process (h : Kept cfg P) (hget : s.conns.get c = some conn) (hs : P s) (i : Input)
    (ans : Answers) : P (Gateway.process cfg s c conn ans i).1 := by
  cases i with
  | syslog text =>
    rw [Gateway.process, processSyslogLines]
    split_ifs
    · exact h.handAll (h.classify _ _ hget hs) _
    · exact h.classify _ _ hget hs
  | frame f =>
    rw [Gateway.process, processFrame]
    have hclass : P (s.setConn c fun _ => conn.classify (Go.str "agent_wzcp") (Go.str "agent")) :=
      h.classify _ _ hget hs
    split_ifs
    · exact h.processHello hclass f ans
    · exact h.sendAck (h.refresh c hclass) f.seq ans
    · exact h.processEventBatch (h.refresh c hclass) f ans
    · exact hclass

/-- **Every step keeps it.** -/
theorem step (h : Kept cfg P) (hs : P s) {ev : Event} (hstep : step cfg s ev = some s') : P s' := by
  cases ev with
  | accept =>
    obtain rfl := Option.some.inj hstep
    exact h.accept hs
  | wait seconds =>
    obtain rfl := Option.some.inj hstep
    exact h.wait seconds hs
  | close c =>
    rw [Gateway.step] at hstep
    split at hstep
    · exact absurd hstep (by simp)
    · obtain rfl := Option.some.inj hstep
      exact h.connDel c hs
  | input c i ans =>
    rw [Gateway.step] at hstep
    split at hstep
    · exact absurd hstep (by simp)
    · next conn hget =>
      obtain rfl := Option.some.inj hstep
      split_ifs
      · exact h.process hget hs i ans
      · exact h.connDel c (h.process hget hs i ans)

/-- **It holds in every state of a run.** -/
theorem reach (h : Kept cfg P) {now : ℤ} (hinit : P (.init now))
    {ok : History State Event → State → Event → Prop} {hist : History State Event}
    (hreach : Reach (Gateway.step cfg) ok (.init now) hist s) : P s :=
  @Reach.invariant _ _ (Gateway.step cfg) ok (.init now) (fun _ s => P s) hinit
    (fun hs _ hstep => h.step hs hstep) hist s hreach

end Kept

end Gateway

end Xsiam
