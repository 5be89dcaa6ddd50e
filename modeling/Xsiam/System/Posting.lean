import Xsiam.Devices.Service
import Xsiam.Gateway.Posts

/-!
# From the gateway to the server

A gateway posts the events of its agents to the server, which binds the body of a post and handles the
event. Here the two are put together: each post is delivered at once, in the order in which they are
posted, and no call fails (`Xsiam.System.Deployment.deliver`).

What a connection reads is posted as a connect or a heartbeat of its agent, and what ends a connection as
a disconnect (`Xsiam.System.posts_process`, `Xsiam.System.posts_connDel`). In the registry of the server
a post sets the score of its agent or takes it away (`Xsiam.System.Deployment.score_deliver`).
-/

namespace Xsiam

namespace System

open Go Gateway Devices Presence

/-! ### A deployment -/

/-- A gateway and the server it posts to. -/
structure Deployment where
  gateway : Config
  fbInstanceID : CString
  /-- `ShouldBindJSON` of the internal handler; `none` is an error. -/
  bindJSON : List UInt8 → Option AgentEvent

/-- The `AgentEventType` of a name. -/
def eventType (name : GoString) : AgentEventType :=
  if name = str "connect" then .connect
  else if name = str "disconnect" then .disconnect
  else if name = str "heartbeat" then .heartbeat
  else if name = str "fb_heartbeat" then .fbHeartbeat
  else .other name

/-- The event that a post is about. -/
def Deployment.event (d : Deployment) (p : Post) : AgentEvent where
  agentID := p.agentID
  event := eventType p.event.text
  tenantID := d.gateway.tenant
  fbInstanceID := d.fbInstanceID

/-- What is taken for granted of a deployment: the gateway posts, what it is configured with needs no
escape, and the members of a body are bound to the fields of their names. -/
structure Deployment.Sound (d : Deployment) : Prop where
  enabled : d.gateway.eventEnabled = true
  fbInstanceID : PlainText d.fbInstanceID
  tenantID : PlainText d.gateway.tenantID
  bindJSON : ∀ body p, Json.decode body = some (postFields d.gateway d.fbInstanceID p) →
    d.bindJSON body = some (d.event p)

namespace Deployment

variable (d : Deployment)

/-- `Handle` of the internal handler, on the body of a post. -/
def deliver (st : Stores) (p : Post) : Stores :=
  match d.bindJSON (postBody d.gateway d.fbInstanceID p) with
  | none => st
  | some ev => (handleAgentEvent {} st ev).1

/-- Posts, one after the other. -/
def deliverAll (st : Stores) (ps : List Post) : Stores := ps.foldl d.deliver st

end Deployment

/-! ### What a post does to the registry -/

/-- What an event makes of the score of its agent. -/
def scoreAfter (now : ℕ) (score : Option ℕ) : EventName → Option ℕ
  | .connect => some now
  | .heartbeat => some now
  | .disconnect => none
  | .fbHeartbeat => score

/-- A post that the server reads as it is meant. -/
structure Readable (p : Post) : Prop where
  agentID : p.agentID ≠ []
  plain : PlainText p.agentID

namespace Deployment

variable {d : Deployment} (hd : d.Sound) {st : Stores} {p : Post}

include hd

theorem deliver_eq (hp : Readable p) : d.deliver st p = (handleAgentEvent {} st (d.event p)).1 := by
  have hdecode := (decode_pasted_post hd.fbInstanceID hd.tenantID hp.agentID).mpr hp.plain
  rw [deliver, hd.bindJSON _ p hdecode]

omit hd in
theorem tenant_event (p : Post) : (d.event p).tenant = d.gateway.tenant := by
  have hne : d.gateway.tenant ≠ [] := by
    rw [Config.tenant]
    split_ifs with h
    · decide
    · exact h
  exact if_neg hne

theorem typed_deliver (hp : Readable p) (h : Typed st.reg) : Typed (d.deliver st p).reg := by
  rw [deliver_eq hd hp]
  exact typed_handleAgentEvent h

theorem now_deliver (hp : Readable p) : (d.deliver st p).reg.now = st.reg.now := by
  rw [deliver_eq hd hp]
  exact now_handleAgentEvent

/-- **A post of an agent sets its score, or takes it away**, and nothing else. -/
theorem score_deliver (hp : Readable p) (h : Typed st.reg) (a : GoString) :
    (d.deliver st p).reg.score d.gateway.tenant a =
      if a = p.agentID then scoreAfter st.reg.now (st.reg.score d.gateway.tenant a) p.event
      else st.reg.score d.gateway.tenant a := by
  rw [deliver_eq hd hp, score_handleAgentEvent h, tenant_event]
  refine if_congr (and_iff_right rfl) ?_ rfl
  have hid : (d.event p).agentID ≠ [] := hp.agentID
  rw [newScore, if_neg hid]
  obtain ⟨event, agentID⟩ := p
  cases event <;> rfl

/-- Posts of other agents leave a score as it is, and no post takes time. -/
theorem deliverAll_of_ne {ps : List Post} {a : GoString} : ∀ {st : Stores},
    (∀ p ∈ ps, Readable p ∧ p.agentID ≠ a) → Typed st.reg →
      Typed (d.deliverAll st ps).reg ∧ (d.deliverAll st ps).reg.now = st.reg.now ∧
        (d.deliverAll st ps).reg.score d.gateway.tenant a = st.reg.score d.gateway.tenant a := by
  induction ps with
  | nil => exact fun _ h => ⟨h, rfl, rfl⟩
  | cons p ps ih =>
    intro st hps h
    obtain ⟨⟨hp, hne⟩, hrest⟩ := List.forall_mem_cons.mp hps
    obtain ⟨htyped, hnow, hscore⟩ := ih hrest (typed_deliver hd hp h)
    refine ⟨htyped, hnow.trans (now_deliver hd hp), hscore.trans ?_⟩
    rw [score_deliver hd hp h, if_neg (Ne.symm hne)]

theorem typed_deliverAll {ps : List Post} : ∀ {st : Stores}, (∀ p ∈ ps, Readable p) →
    Typed st.reg → Typed (d.deliverAll st ps).reg ∧ (d.deliverAll st ps).reg.now = st.reg.now := by
  induction ps with
  | nil => exact fun _ h => ⟨h, rfl⟩
  | cons p ps ih =>
    intro st hps h
    obtain ⟨hp, hrest⟩ := List.forall_mem_cons.mp hps
    obtain ⟨htyped, hnow⟩ := ih hrest (typed_deliver hd hp h)
    exact ⟨htyped, hnow.trans (now_deliver hd hp)⟩

end Deployment

/-! ### What is posted -/

/-- The agent that an input is heard of: the one it announces, or the one its connection is bound to where
it is a heartbeat or a batch of events. -/
def hears (s : Gateway.State) (c : ℕ) : Input → Option CString
  | .syslog _ => none
  | .frame f =>
    if f.msgType = wzcpMsgHello then (Input.frame f).announced
    else if f.msgType = wzcpMsgHeartbeat ∨ f.msgType = wzcpMsgEventBatch then s.agentKey c
    else none

/-- The event that is posted of the agent that is heard. -/
def heardAs : Input → EventName
  | .syslog _ => .heartbeat
  | .frame f => if f.msgType = wzcpMsgHello then .connect else .heartbeat

theorem scoreAfter_heardAs (now : ℕ) (score : Option ℕ) (i : Input) :
    scoreAfter now score (heardAs i) = some now := by
  cases i with
  | syslog => rfl
  | frame f =>
    rw [heardAs]
    split_ifs <;> rfl

/-- Every agent that a connection is bound to has an entry in the table. -/
def Entered (s : Gateway.State) : Prop := ∀ c a, s.agentKey c = some a → (s.agents.find a).isSome

section Posts

variable {cfg : Config} (henabled : cfg.eventEnabled = true) {s : Gateway.State} {c : ℕ}
  {conn : Conn} {ans : Gateway.Answers}

theorem posts_sendAck (seq : UInt64) : (s.sendAck c seq ans).1.posts = s.posts := by
  rw [State.sendAck]
  split_ifs <;> rfl

theorem posts_hand (records : List LogRecord) : (s.hand records).posts = s.posts := by
  rw [State.hand]
  split_ifs <;> rfl

include henabled

/-- A heartbeat is posted of the agent that a connection is bound to. -/
theorem posts_refresh (h : Entered s) : (s.refresh cfg c).posts =
    s.posts ++ ((s.agentKey c).map (⟨.heartbeat, ·⟩)).toList := by
  rw [State.refresh]
  cases hkey : s.agentKey c with
  | none => exact (List.append_nil _).symm
  | some a =>
    obtain ⟨st, hst⟩ := Option.isSome_iff_exists.mp (h c a hkey)
    simp [State.mark, markHeartbeat, hst, postAgentEvent, henabled]

/-- **What is posted of an input**: the agent that is heard. -/
theorem posts_process (hget : s.conns.get c = some conn) (h : Entered s) (i : Input) :
    (process cfg s c conn ans i).1.posts =
      s.posts ++ ((hears s c i).map (⟨heardAs i, ·⟩)).toList := by
  cases i with
  | syslog text =>
    rw [process, processSyslogLines]
    split_ifs
    · exact (posts_hand _).trans (List.append_nil _).symm
    · exact (List.append_nil _).symm
  | frame f =>
    set s₁ := s.setConn c fun _ => conn.classify (str "agent_wzcp") (str "agent") with hs₁
    have hkey : ∀ c', s₁.agentKey c' = s.agentKey c' := (keeps_setConn hget rfl).agentKey
    have hentered : Entered s₁ := fun c' a ha => h c' a ((hkey c').symm.trans ha)
    rw [process, processFrame, hears, heardAs]
    rw [← hs₁]
    by_cases hhello : f.msgType = wzcpMsgHello
    · -- a HELLO that is accepted and names an agent is posted
      rw [if_pos hhello, if_pos hhello, if_pos hhello, processHello, Input.announced, if_pos hhello]
      cases hparse : parseHello f.body with
      | none => exact (List.append_nil _).symm
      | some hello =>
        dsimp only
        rw [posts_sendAck]
        by_cases hid : hello.agentID = []
        · simp [State.mark, markSeen, hid, State.setConn, hs₁]
        · simp [State.mark, markSeen, hid, State.setConn, hs₁, postAgentEvent, henabled]
    · rw [if_neg hhello, if_neg hhello, if_neg hhello]
      -- any other frame refreshes the agent first
      have hposts := @posts_refresh cfg henabled s₁ c hentered
      rw [hkey] at hposts
      by_cases hheartbeat : f.msgType = wzcpMsgHeartbeat
      · rw [if_pos hheartbeat, if_pos (.inl hheartbeat), posts_sendAck]
        exact hposts
      · rw [if_neg hheartbeat]
        by_cases hbatch : f.msgType = wzcpMsgEventBatch
        · rw [if_pos hbatch, if_pos (.inr hbatch), processEventBatch]
          split
          · exact hposts
          · split_ifs
            · rw [posts_sendAck, posts_hand]
              exact hposts
            · exact hposts
        · rw [if_neg hbatch, if_neg (not_or.mpr ⟨hheartbeat, hbatch⟩)]
          exact (List.append_nil _).symm

omit henabled

/-- **What is posted of a connection that ends**: that its agent disconnects, or nothing. -/
theorem posts_connDel (cfg : Config) (s : Gateway.State) (c : ℕ) :
    ∃ ps, (connDel cfg s c).posts = s.posts ++ ps ∧
      ∀ p ∈ ps, s.agentKey c = some p.agentID := by
  rw [connDel]
  cases hkey : s.agentKey c with
  | none => exact ⟨[], (List.append_nil _).symm, fun p hp => absurd hp List.not_mem_nil⟩
  | some a =>
    refine ⟨(markDisconnected cfg s.now s.agents a).2, rfl, fun p hp => ?_⟩
    rw [agentID_markDisconnected hp]

/-- The agents that are bound stay in the table. -/
theorem kept_entered (cfg : Config) : Kept cfg Entered where
  accept := fun {s} h c a ha => h c a ((agentKey_accept s c).symm.trans ha)
  wait := fun _ h => h
  classify := by
    intro s c conn tag group hget h c' a ha
    exact h c' a (((keeps_setConn hget rfl).agentKey c').symm.trans ha)
  greet := by
    intro s body hello c hparse h c' a ha
    -- a HELLO adds its agent to the table, and takes none away
    have hfound : ((markSeen cfg s.now s.agents hello).1.find a).isSome ↔
        (s.agents.find a).isSome ∨ (hello.agentID ≠ [] ∧ hello.agentID = a) := by
      by_cases hid : hello.agentID = []
      · rw [markSeen, if_pos hid]
        simp [hid]
      · rw [find_markSeen hid]
        split_ifs with heq
        · simp [heq, hid]
        · simp [Ne.symm heq]
    exact hfound.mpr ((agentKey_greet ha).imp (h c' a) id)
  refresh := by
    intro s c h c' a ha
    have hbound := h c' a (((keeps_refresh cfg s c).agentKey c').symm.trans ha)
    rw [State.refresh]
    split
    · exact hbound
    · rw [State.mark, markHeartbeat]
      split
      · exact hbound
      · dsimp only
        rw [Table.find_modify]
        split_ifs
        · rwa [Option.isSome_map]
        · exact hbound
  ack := fun _ _ h => h
  hand := fun _ h => h
  connDel := by
    intro s c h c' a ha
    rw [agentKey_connDel] at ha
    split_ifs at ha
    have hbound := h c' a ha
    rw [connDel]
    split
    · exact hbound
    · rw [State.mark, markDisconnected]
      split
      · exact hbound
      · split_ifs
        · dsimp only
          rw [Table.find_modify]
          split_ifs
          · rwa [Option.isSome_map]
          · exact hbound
        · exact hbound

end Posts

end System

end Xsiam
