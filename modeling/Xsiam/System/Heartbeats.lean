import Xsiam.Devices.Connections
import Xsiam.System.Posting

/-!
# Heartbeats and the lease

An agent on Windows sends a heartbeat after 30 to 120 seconds, as `wzcp_next_heartbeat_interval` of
`client-agent/receiver.c` draws them, and other agents only answer those of the gateway. The gateway tells
the server of a HELLO, of a heartbeat and of a batch of events, and of nothing else; and the server takes an
agent for online for `LeaseTTL`, which is 90 seconds, after it was told last.

The three are run together here, every message being delivered at once. While nothing disturbs the
agents that are connected (`Xsiam.System.Undisturbed`), each of them is online at every instant exactly if
never more than 90 seconds go by in which its connection sends none of these three
(`Xsiam.System.online_iff_timely`). Heartbeats on schedule are in time if no interval is longer
than that (`Xsiam.System.online_of_short`), and too late otherwise (`Xsiam.System.not_online`).
-/

namespace Xsiam

namespace System

open Go Gateway Devices Presence Run

/-! ### The heartbeats of an agent -/

/-- `wzcp_next_heartbeat_interval`, by what `rand` returns. -/
def nextHeartbeatInterval (rand : ℕ) : ℕ := 30 + rand % 91

/-- The variables `next_wzcp_heartbeat` and `last_wzcp_sock` of the receiver. -/
structure Schedule where
  nextHeartbeat : ℕ := 0
  lastSock : ℤ := -1

/-- `wzcp_send_heartbeat_if_due` on a socket, and whether a heartbeat is sent. -/
def sendHeartbeatIfDue (enabled : Bool) (sock : ℤ) (now rand : ℕ) (sch : Schedule) :
    Schedule × Bool :=
  if !enabled ∨ sock = -1 then (⟨0, -1⟩, false)
  else if sch.lastSock ≠ sock ∨ sch.nextHeartbeat = 0 then
    (⟨now + nextHeartbeatInterval rand, sock⟩, false)
  else if now < sch.nextHeartbeat then (sch, false)
  else ({ sch with nextHeartbeat := now + nextHeartbeatInterval rand }, true)

/-- The heartbeat an agent sends. -/
def heartbeatOf (agentID : UInt32) (seq : UInt64) : Input :=
  .frame { msgType := wzcpMsgHeartbeat, agentID, seq }

/-! ### The machine -/

/-- A gateway, the stores of the server, and the schedules of the agents by their connections. -/
structure State where
  gateway : Gateway.State
  stores : Stores
  schedules : ℕ → Schedule

/-- What happens. -/
inductive Event where
  | accept
  | input (c : ℕ) (i : Input) (ans : Gateway.Answers)
  /-- The receiver of the agent on a connection goes round once. -/
  | receiverRound (c rand : ℕ) (agentID : UInt32) (seq : UInt64) (ans : Gateway.Answers)
  | close (c : ℕ)
  | wait (ms : ℕ)

/-- The clock, in milliseconds. -/
def State.now (s : State) : ℕ := s.stores.reg.now

/-- `time(NULL)` -/
def State.seconds (s : State) : ℕ := s.now / 1000

/-- Nothing is connected at the start, and nobody is online. -/
def State.init (start : ℕ) (devices : Repo)
    (server : Redis.Server GoString := Redis.inMemory) : State :=
  ⟨.init (start / 1000 : ℕ), .init start devices server, fun _ => {}⟩

/-- An event of the gateway. What it posts is delivered at once. -/
def State.through (d : Deployment) (s : State) (ev : Gateway.Event) : Option State :=
  (Gateway.step d.gateway s.gateway ev).map fun g =>
    { s with gateway := g, stores := d.deliverAll s.stores (g.posts.drop s.gateway.posts.length) }

/-- What a round of a receiver does. -/
def State.round (s : State) (c rand : ℕ) : Schedule × Bool :=
  sendHeartbeatIfDue true c s.seconds rand (s.schedules c)

/-- One event. -/
def step (d : Deployment) (s : State) : Event → Option State
  | .accept => s.through d .accept
  | .input c i ans => s.through d (.input c i ans)
  | .receiverRound c rand agentID seq ans =>
    match s.gateway.conns.get c with
    | none => none
    | some _ =>
      let after := { s with schedules := Function.update s.schedules c (s.round c rand).1 }
      if (s.round c rand).2 then after.through d (.input c (heartbeatOf agentID seq) ans)
      else some after
  | .close c => s.through d (.close c)
  | .wait ms => some { s with
      gateway := { s.gateway with now := s.gateway.now + ((s.now + ms) / 1000 - s.seconds : ℕ) }
      stores := { s.stores with reg := Redis.Db.wait s.stores.reg ms } }

/-! ### What is heard -/

/-- What a connection reads in an event. -/
def Event.reads (s : State) : Event → Option (ℕ × Input × Gateway.Answers)
  | .input c i ans => some (c, i, ans)
  | .receiverRound c rand agentID seq ans =>
    if (s.round c rand).2 then some (c, heartbeatOf agentID seq, ans) else none
  | _ => none

/-- The time that passes in an event. -/
def Event.passes : Event → ℕ
  | .wait ms => ms
  | _ => 0

/-- The agent that is heard in an event: of its HELLO, a heartbeat or a batch of events. -/
def Event.heard (s : State) (ev : Event) : Option CString :=
  (ev.reads s).bind fun r => hears s.gateway r.1 r.2.1

/-- When an agent was heard last. -/
def lastHeard (hist : History State Event) (a : CString) : Option ℕ :=
  hist.findSome? fun p => if p.2.heard p.1 = some a then some p.1.now else none

/-- Time does not pass beyond the lease of an agent that is connected. -/
def Timely (hist : History State Event) (s : State) : Event → Prop
  | .wait ms => ∀ c a t, s.gateway.agentKey c = some a → lastHeard hist a = some t →
      s.now + ms ≤ t + leaseTTL
  | _ => True

/-- All events of a run are in time. -/
def AllTimely : History State Event → Prop
  | [] => True
  | (s, ev) :: hist => Timely hist s ev ∧ AllTimely hist

/-- Nothing but time makes an agent look offline: the agent IDs that are announced need no escape in the
post, and no connection ends that is bound to an agent while another one is bound to it. -/
structure Undisturbed (s : State) (ev : Event) : Prop where
  plain : ∀ c i ans a, ev.reads s = some (c, i, ans) → i.announced = some a → PlainText a
  fails : ∀ c i ans a, ev.reads s = some (c, i, ans) → i.survives ans = false →
    i.announced.or (s.gateway.agentKey c) = some a → ¬s.gateway.BoundElsewhere c a
  closes : ∀ c a, ev = .close c → s.gateway.agentKey c = some a → ¬s.gateway.BoundElsewhere c a

/-- The agents that are connected are online. -/
def Online (d : Deployment) (s : State) : Prop :=
  ∀ c a, s.gateway.agentKey c = some a → s.stores.reg.isOnline d.gateway.tenant a = true

/-- They are so in every state of a run. -/
def OnlineThroughout (d : Deployment) : History State Event → State → Prop
  | [], s => Online d s
  | (s₀, _) :: hist, s => Online d s ∧ OnlineThroughout d hist s₀

/-! ### Steps -/

/-- What holds of every state: the score of an agent that is connected is when it was heard last. -/
structure Tracks (d : Deployment) (hist : History State Event) (s : State) : Prop where
  typed : Typed s.stores.reg
  entered : Entered s.gateway
  readable : ∀ c a, s.gateway.agentKey c = some a → a ≠ [] ∧ PlainText a
  scored : ∀ c a, s.gateway.agentKey c = some a → ∃ t, lastHeard hist a = some t ∧
    s.stores.reg.score d.gateway.tenant a = some t

theorem announced_ne_nil {i : Input} {a : CString} (h : i.announced = some a) : a ≠ [] := by
  cases i with
  | syslog => exact absurd h (by simp [Input.announced])
  | frame f =>
    rw [Input.announced] at h
    split_ifs at h
    split at h
    · exact absurd h (by simp)
    · split_ifs at h with hid
      exact Option.some.inj h ▸ hid

section Gateway

variable {cfg : Config} {s : Gateway.State} {c : ℕ} {conn : Conn} {ans : Gateway.Answers}

theorem agentKey_process (hget : s.conns.get c = some conn) (i : Input) (c' : ℕ) :
    (process cfg s c conn ans i).1.agentKey c' =
      if c' = c then i.announced.or (s.agentKey c) else s.agentKey c' := by
  have hview := congrFun (congrArg Occupancy.State.group (@view_process cfg s c conn ans hget i)) c'
  refine hview.trans ?_
  cases i.announced with
  | none =>
    split_ifs with hc
    · rw [hc]
      rfl
    · rfl
  | some a =>
    show Function.update s.agentKey c (some a) c' = _
    rw [Function.update_apply]
    rfl

/-- Who is heard is announced, or bound to the connection. -/
theorem hears_cases {i : Input} {a : CString} (h : hears s c i = some a) :
    i.announced = some a ∨ (i.announced = none ∧ s.agentKey c = some a) := by
  cases i with
  | syslog => exact absurd h (by simp [hears])
  | frame f =>
    rw [hears] at h
    split_ifs at h with hhello hother
    · exact .inl h
    · exact .inr ⟨by rw [Input.announced, if_neg hhello], h⟩

/-- Who is announced is heard. -/
theorem hears_of_announced {i : Input} {a : CString} (h : i.announced = some a) :
    hears s c i = some a := by
  cases i with
  | syslog => exact absurd h (by simp [Input.announced])
  | frame f =>
    have hhello : f.msgType = wzcpMsgHello := by
      by_contra hne
      rw [Input.announced, if_neg hne] at h
      exact absurd h (by simp)
    rwa [hears, if_pos hhello]

end Gateway

section Steps

variable {d : Deployment} {hist : History State Event} {s s' : State} {ev : Event}

theorem lastHeard_cons (p : State × Event) (a : CString) : lastHeard (p :: hist) a =
    if p.2.heard p.1 = some a then some p.1.now else lastHeard hist a := by
  rw [lastHeard, List.findSome?_cons]
  split_ifs <;> rfl

/-- What a step is: a connection reads, a connection is closed, time passes, or nothing happens to the
connections and the stores. -/
inductive Stepped (d : Deployment) (s : State) (ev : Event) (s' : State) : Prop where
  | reads {c : ℕ} {i : Input} {ans : Gateway.Answers} {conn : Conn}
    (hreads : ev.reads s = some (c, i, ans)) (hget : s.gateway.conns.get c = some conn)
    (hgateway : s'.gateway =
      if i.survives ans then (process d.gateway s.gateway c conn ans i).1
      else connDel d.gateway (process d.gateway s.gateway c conn ans i).1 c)
    (hstores : s'.stores =
      d.deliverAll s.stores (s'.gateway.posts.drop s.gateway.posts.length))
  | closes {c : ℕ} (hev : ev = .close c) (hgateway : s'.gateway = connDel d.gateway s.gateway c)
    (hstores : s'.stores =
      d.deliverAll s.stores (s'.gateway.posts.drop s.gateway.posts.length))
  | idle (hreads : ev.reads s = none) (hwait : ∀ ms, ev ≠ .wait ms) (hstores : s'.stores = s.stores)
    (hagents : s'.gateway.agents = s.gateway.agents)
    (hkey : ∀ c a, s'.gateway.agentKey c = some a → s.gateway.agentKey c = some a)
  | waits {ms : ℕ} (hev : ev = .wait ms)
    (hstores : s'.stores = { s.stores with reg := Redis.Db.wait s.stores.reg ms })
    (hagents : s'.gateway.agents = s.gateway.agents)
    (hkey : ∀ c, s'.gateway.agentKey c = s.gateway.agentKey c)

/-- What a connection reads, with whatever schedules. -/
theorem stepped_through {schedules : ℕ → Schedule} {c : ℕ} {i : Input} {ans : Gateway.Answers}
    (hreads : ev.reads s = some (c, i, ans))
    (h : State.through d { s with schedules } (.input c i ans) = some s') : Stepped d s ev s' := by
  obtain ⟨g, hg, rfl⟩ := Option.map_eq_some_iff.mp h
  obtain ⟨conn, hget, rfl⟩ := step_input hg
  exact .reads hreads hget rfl rfl

theorem stepped_of_step (h : step d s ev = some s') : Stepped d s ev s' := by
  cases ev with
  | accept =>
    obtain rfl := Option.some.inj h
    refine .idle rfl (fun _ hev => by cases hev) ?_ rfl fun c a ha => ?_
    · show d.deliverAll s.stores (s.gateway.posts.drop s.gateway.posts.length) = s.stores
      rw [List.drop_length]
      rfl
    · exact (Gateway.agentKey_accept s.gateway c).symm.trans ha
  | input c i ans => exact stepped_through rfl h
  | receiverRound c rand agentID seq ans =>
    rw [step] at h
    split at h
    · exact absurd h (by simp)
    · dsimp only at h
      split_ifs at h with hsends
      · exact stepped_through (by rw [Event.reads, if_pos hsends]) h
      · obtain rfl := Option.some.inj h
        refine .idle ?_ (fun _ hev => by cases hev) rfl rfl fun _ _ ha => ha
        rw [Event.reads, if_neg hsends]
  | close c =>
    obtain ⟨g, hg, rfl⟩ := Option.map_eq_some_iff.mp h
    obtain rfl := step_close hg
    exact .closes rfl rfl rfl
  | wait ms =>
    obtain rfl := Option.some.inj h
    exact .waits rfl rfl rfl fun _ => rfl

/-! ### What a step does to scores -/

/-- What a step does to the agents that are connected after it: they were connected before, or are
announced, and their scores are as they were, or set where they are heard. -/
structure Scores (d : Deployment) (s : State) (ev : Event) (s' : State) : Prop where
  now : s'.now = s.now + ev.passes
  typed : Typed s'.stores.reg
  entered : Entered s'.gateway
  readable : ∀ c a, s'.gateway.agentKey c = some a → a ≠ [] ∧ PlainText a
  bound : ∀ c a, s'.gateway.agentKey c = some a →
    ev.heard s = some a ∨ s.gateway.agentKey c = some a
  score : ∀ c a, s'.gateway.agentKey c = some a → s'.stores.reg.score d.gateway.tenant a =
    if ev.heard s = some a then some s.now else s.stores.reg.score d.gateway.tenant a

section Reading

variable (hd : d.Sound) (h : Tracks d hist s) {c : ℕ} {i : Input} {ans : Gateway.Answers} {conn : Conn}
  (hget : s.gateway.conns.get c = some conn)

include hd h

/-- What is posted of an agent that is heard. -/
theorem deliver_heard (hplain : ∀ a, i.announced = some a → PlainText a) :
    let st := d.deliverAll s.stores ((hears s.gateway c i).map (⟨heardAs i, ·⟩)).toList
    (Typed st.reg ∧ st.reg.now = s.now) ∧ ∀ a, st.reg.score d.gateway.tenant a =
      if hears s.gateway c i = some a then some s.now else s.stores.reg.score d.gateway.tenant a := by
  cases hheard : hears s.gateway c i with
  | none => exact ⟨⟨h.typed, rfl⟩, fun a => rfl⟩
  | some b =>
    have hread : Readable ⟨heardAs i, b⟩ := by
      rcases hears_cases hheard with hann | ⟨-, hkey⟩
      · exact ⟨announced_ne_nil hann, hplain b hann⟩
      · exact ⟨(h.readable c b hkey).1, (h.readable c b hkey).2⟩
    refine ⟨⟨Deployment.typed_deliver hd hread h.typed, Deployment.now_deliver hd hread⟩, fun a => ?_⟩
    refine (Deployment.score_deliver hd hread h.typed a).trans ?_
    rw [scoreAfter_heardAs]
    exact if_congr (by rw [Option.some.injEq, eq_comm]) rfl rfl

omit hd in
/-- Who a connection is bound to in the end can be posted. -/
theorem readable_or (hplain : ∀ a, i.announced = some a → PlainText a) {a : CString}
    (ha : i.announced.or (s.gateway.agentKey c) = some a) : a ≠ [] ∧ PlainText a := by
  cases hann : i.announced with
  | some b =>
    rw [hann, Option.some_or] at ha
    obtain rfl := Option.some.inj ha
    exact ⟨announced_ne_nil hann, hplain b hann⟩
  | none =>
    rw [hann, Option.none_or] at ha
    exact h.readable c a ha

end Reading

theorem deliverAll_append (d : Deployment) (st : Stores) (ps ps' : List Post) :
    d.deliverAll st (ps ++ ps') = d.deliverAll (d.deliverAll st ps) ps' := List.foldl_append

/-- A connection that ends leaves the scores of agents that are bound elsewhere. -/
theorem score_connDel (hd : d.Sound) {g : Gateway.State} {c : ℕ} {st : Stores} {posts : List Post}
    (htyped : Typed st.reg) (hown : ∀ a, g.agentKey c = some a → a ≠ [] ∧ PlainText a)
    (hposts : ∃ ps, posts = ps ∧ ∀ p ∈ ps, g.agentKey c = some p.agentID) :
    (Typed (d.deliverAll st posts).reg ∧ (d.deliverAll st posts).reg.now = st.reg.now) ∧
      ∀ a, g.agentKey c ≠ some a →
        (d.deliverAll st posts).reg.score d.gateway.tenant a = st.reg.score d.gateway.tenant a := by
  obtain ⟨ps, rfl, hps⟩ := hposts
  have hread : ∀ p ∈ posts, Readable p := fun p hp =>
    ⟨(hown _ (hps p hp)).1, (hown _ (hps p hp)).2⟩
  refine ⟨Deployment.typed_deliverAll hd hread htyped, fun a hne => ?_⟩
  refine (Deployment.deliverAll_of_ne hd (fun p hp => ⟨hread p hp, ?_⟩) htyped).2.2
  rintro rfl
  exact hne (hps p hp)

/-- **What every step does to the scores of the agents that are connected.** -/
theorem scores_of_stepped (hd : d.Sound) (h : Tracks d hist s) (hu : Undisturbed s ev)
    (hstep : Stepped d s ev s') : Scores d s ev s' := by
  cases hstep with
  | @reads c i ans conn hreads hget hgateway hstores =>
    have hplain := fun a => hu.plain c i ans a hreads
    have hheard : ev.heard s = hears s.gateway c i := by
      rw [Event.heard, hreads]
      rfl
    have hpasses : ev.passes = 0 := by
      cases ev with
      | wait ms => exact absurd hreads (by simp [Event.reads])
      | _ => rfl
    obtain ⟨⟨htyped, hnow⟩, hscore⟩ := deliver_heard (c := c) hd h hplain
    have hposts := @posts_process d.gateway hd.enabled s.gateway c conn ans hget h.entered i
    have hkey := @agentKey_process d.gateway s.gateway c conn ans hget i
    have hentered := (kept_entered d.gateway).process hget h.entered i ans
    -- who is bound after the input was announced, or was bound before
    have hbound : ∀ c' a, (process d.gateway s.gateway c conn ans i).1.agentKey c' = some a →
        (a ≠ [] ∧ PlainText a) ∧
          (hears s.gateway c i = some a ∨ s.gateway.agentKey c' = some a) := by
      intro c' a ha
      rw [hkey] at ha
      split_ifs at ha with hc
      · refine ⟨readable_or h hplain ha, ?_⟩
        cases hann : i.announced with
        | some b =>
          rw [hann, Option.some_or] at ha
          exact .inl (hears_of_announced (hann.trans ha))
        | none =>
          rw [hann, Option.none_or] at ha
          exact .inr (hc ▸ ha)
      · exact ⟨h.readable c' a ha, .inr ha⟩
    cases hsurvives : i.survives ans with
    | true =>
      rw [hsurvives, if_pos rfl] at hgateway
      rw [hgateway, hposts, List.drop_left] at hstores
      rw [← hstores] at htyped hnow hscore
      refine ⟨by rw [hpasses]; exact hnow, htyped, hgateway ▸ hentered, fun c' a ha => ?_,
        fun c' a ha => ?_, fun c' a _ => ?_⟩
      · exact (hbound c' a (hgateway ▸ ha)).1
      · rw [hheard]
        exact (hbound c' a (hgateway ▸ ha)).2
      · rw [hheard]
        exact hscore a
    | false =>
      rw [hsurvives, if_neg (by simp)] at hgateway
      obtain ⟨ps, hps, hpsKey⟩ :=
        posts_connDel d.gateway (process d.gateway s.gateway c conn ans i).1 c
      rw [hgateway, hps, hposts, List.append_assoc, List.drop_left, deliverAll_append] at hstores
      obtain ⟨⟨htyped', hnow'⟩, hscore'⟩ := score_connDel hd htyped (fun a ha => (hbound c a ha).1)
        ⟨ps, rfl, hpsKey⟩
      rw [hnow, ← hstores] at hnow'
      rw [← hstores] at htyped' hscore'
      have hafter : ∀ c' a, s'.gateway.agentKey c' = some a → c' ≠ c ∧
          (process d.gateway s.gateway c conn ans i).1.agentKey c' = some a := by
        intro c' a ha
        rw [hgateway, agentKey_connDel] at ha
        split_ifs at ha with hc
        exact ⟨hc, ha⟩
      refine ⟨by rw [hpasses]; exact hnow', htyped',
        hgateway ▸ (kept_entered d.gateway).connDel c hentered, fun c' a ha => ?_,
        fun c' a ha => ?_, fun c' a ha => ?_⟩
      · exact (hbound c' a (hafter c' a ha).2).1
      · rw [hheard]
        exact (hbound c' a (hafter c' a ha).2).2
      · -- the agent that goes is not bound elsewhere
        obtain ⟨hc, hkey'⟩ := hafter c' a ha
        rw [hkey, if_neg hc] at hkey'
        rw [hheard, ← hscore a]
        refine hscore' a fun hown => ?_
        rw [hkey, if_pos rfl] at hown
        exact hu.fails c i ans a hreads hsurvives hown ⟨c', hc, hkey'⟩
  | @closes c hev hgateway hstores =>
    have hheard : ev.heard s = none := by
      rw [hev]
      rfl
    obtain ⟨ps, hps, hpsKey⟩ := posts_connDel d.gateway s.gateway c
    rw [hgateway, hps, List.drop_left] at hstores
    obtain ⟨⟨htyped, hnow⟩, hscore⟩ :=
      score_connDel hd h.typed (fun a => h.readable c a) ⟨ps, rfl, hpsKey⟩
    rw [← hstores] at htyped hnow hscore
    have hafter : ∀ c' a, s'.gateway.agentKey c' = some a → c' ≠ c ∧
        s.gateway.agentKey c' = some a := by
      intro c' a ha
      rw [hgateway, agentKey_connDel] at ha
      split_ifs at ha with hc
      exact ⟨hc, ha⟩
    refine ⟨by rw [hev]; exact hnow, htyped,
      hgateway ▸ (kept_entered d.gateway).connDel c h.entered, fun c' a ha => ?_,
      fun c' a ha => ?_, fun c' a ha => ?_⟩
    · exact h.readable c' a (hafter c' a ha).2
    · exact .inr (hafter c' a ha).2
    · obtain ⟨hc, hkey⟩ := hafter c' a ha
      rw [hheard, if_neg (by simp)]
      exact hscore a fun hown => hu.closes c a hev hown ⟨c', hc, hkey⟩
  | idle hreads hwait hstores hagents hkey =>
    have hheard : ev.heard s = none := by
      rw [Event.heard, hreads]
      rfl
    have hpasses : ev.passes = 0 := by
      cases ev with
      | wait ms => exact absurd rfl (hwait ms)
      | _ => rfl
    refine ⟨by rw [hpasses, State.now, hstores]; rfl, hstores ▸ h.typed, fun c a ha => ?_, fun c a ha => h.readable c a (hkey c a ha),
      fun c a ha => .inr (hkey c a ha), fun c a _ => ?_⟩
    · rw [hagents]
      exact h.entered c a (hkey c a ha)
    · rw [hheard, if_neg (by simp), hstores]
  | @waits ms hev hstores hagents hkey =>
    have hheard : ev.heard s = none := by
      rw [hev]
      rfl
    refine ⟨by rw [hev, State.now, hstores]; rfl, hstores ▸ h.typed.wait ms, fun c a ha => ?_, fun c a ha => ?_, fun c a ha => ?_,
      fun c a _ => ?_⟩
    · rw [hagents]
      exact h.entered c a ((hkey c).symm.trans ha)
    · exact h.readable c a ((hkey c).symm.trans ha)
    · exact .inr ((hkey c).symm.trans ha)
    · rw [hheard, if_neg (by simp), hstores]
      exact Registry.score_wait h.typed ms _ a

/-- **The score of an agent that is connected is when it was heard last**, after every step. -/
theorem Tracks.step (hd : d.Sound) (h : Tracks d hist s) (hu : Undisturbed s ev)
    (hstep : step d s ev = some s') : Tracks d ((s, ev) :: hist) s' := by
  have hscores := scores_of_stepped hd h hu (stepped_of_step hstep)
  refine ⟨hscores.typed, hscores.entered, hscores.readable, fun c a ha => ?_⟩
  rw [lastHeard_cons, hscores.score c a ha]
  by_cases hheard : ev.heard s = some a
  · exact ⟨s.now, if_pos hheard, if_pos hheard⟩
  · rw [if_neg hheard, if_neg hheard]
    exact h.scored c a ((hscores.bound c a ha).resolve_left hheard)

/-! ### Who is online -/

/-- An agent that is connected is online for the time of the lease after it was heard. -/
theorem online_iff (h : Tracks d hist s) : Online d s ↔
    ∀ c a t, s.gateway.agentKey c = some a → lastHeard hist a = some t → s.now ≤ t + leaseTTL := by
  refine forall_congr' fun c => forall_congr' fun a => ?_
  constructor
  · intro honline t hkey hlast
    obtain ⟨t', hlast', hscore⟩ := h.scored c a hkey
    obtain rfl := Option.some.inj (hlast.symm.trans hlast')
    have hnow := honline hkey
    rw [Registry.isOnline, hscore] at hnow
    exact of_decide_eq_true hnow
  · intro hall hkey
    obtain ⟨t, hlast, hscore⟩ := h.scored c a hkey
    rw [Registry.isOnline, hscore]
    exact decide_eq_true (hall t hkey hlast)

/-- **A step leaves the agents that are connected online exactly if it is in time.** -/
theorem online_step_iff (hd : d.Sound) (h : Tracks d hist s) (hu : Undisturbed s ev)
    (hstep : step d s ev = some s') (honline : Online d s) : Online d s' ↔ Timely hist s ev := by
  have hscores := scores_of_stepped hd h hu (stepped_of_step hstep)
  rw [online_iff (h.step hd hu hstep)]
  cases ev with
  | wait ms =>
    obtain rfl := Option.some.inj hstep
    refine forall_congr' fun c => forall_congr' fun a => forall_congr' fun t => ?_
    rw [lastHeard_cons, if_neg (by simp [Event.heard, Event.reads])]
    rfl
  | _ =>
    refine iff_of_true (fun c a t hkey hlast => ?_) trivial
    rw [lastHeard_cons] at hlast
    rw [hscores.now]
    split_ifs at hlast with hheard
    · rw [← Option.some.inj hlast]
      exact Nat.le_add_right _ _
    · have hbefore := (hscores.bound c a hkey).resolve_left hheard
      exact (online_iff h).mp honline c a t hbefore hlast

theorem OnlineThroughout.last (h : OnlineThroughout d hist s) : Online d s := by
  cases hist with
  | nil => exact h
  | cons p hist => exact h.1

theorem agentKey_init (start : ℕ) (devices : Repo) (server : Redis.Server GoString) (c : ℕ) :
    (State.init start devices server).gateway.agentKey c = none := rfl

theorem tracks_init (d : Deployment) (start : ℕ) (devices : Repo)
    (server : Redis.Server GoString) : Tracks d [] (.init start devices server) where
  typed := Typed.empty start server
  entered := fun c a ha => absurd ((agentKey_init start devices server c).symm.trans ha) (by simp)
  readable := fun c a ha => absurd ((agentKey_init start devices server c).symm.trans ha) (by simp)
  scored := fun c a ha => absurd ((agentKey_init start devices server c).symm.trans ha) (by simp)

theorem online_init (d : Deployment) (start : ℕ) (devices : Repo)
    (server : Redis.Server GoString) : Online d (.init start devices server) := fun c a ha =>
  absurd ((agentKey_init start devices server c).symm.trans ha) (by simp)

/-- **In every run, the agents that are connected are online at every instant exactly if they are never
silent for longer than the lease.** -/
theorem online_iff_timely (hd : d.Sound) {start : ℕ} {devices : Repo}
    {server : Redis.Server GoString}
    (h : Reach (step d) (fun _ => Undisturbed) (.init start devices server) hist s) :
    OnlineThroughout d hist s ↔ AllTimely hist := by
  suffices hboth : Tracks d hist s ∧ (OnlineThroughout d hist s ↔ AllTimely hist) from hboth.2
  induction h with
  | start =>
    exact ⟨tracks_init d start devices server,
      iff_of_true (online_init d start devices server) trivial⟩
  | next _ hu hstep ih =>
    obtain ⟨htracks, hiff⟩ := ih
    refine ⟨htracks.step hd hu hstep, ?_⟩
    rw [OnlineThroughout, AllTimely, ← hiff]
    exact and_congr_left fun hbefore => online_step_iff hd htracks hu hstep hbefore.last

/-! ### Heartbeats on schedule -/

/-- A schedule is made for a connection. -/
def Schedule.MadeFor (sch : Schedule) (c : ℕ) : Prop := sch.lastSock = c ∧ sch.nextHeartbeat ≠ 0

/-- The agents that are connected keep their schedules: each has one, and no time passes beyond the next
heartbeat. -/
def OnSchedule (s : State) : Event → Prop
  | .wait ms => ∀ c a, s.gateway.agentKey c = some a →
      (s.schedules c).MadeFor c ∧ s.now + ms ≤ (s.schedules c).nextHeartbeat * 1000
  | _ => True

/-- No interval that is drawn is longer than the lease. -/
def Short : Event → Prop
  | .receiverRound _ rand _ _ _ => nextHeartbeatInterval rand * 1000 ≤ leaseTTL
  | _ => True

/-- The next heartbeat of an agent that is connected comes within the lease. One that has no schedule yet
has only just been heard. -/
structure Scheduled (hist : History State Event) (s : State) : Prop where
  near : ∀ c, (s.schedules c).nextHeartbeat * 1000 ≤ s.now + leaseTTL
  made : ∀ c a t, s.gateway.agentKey c = some a → lastHeard hist a = some t →
    (s.schedules c).MadeFor c → (s.schedules c).nextHeartbeat * 1000 ≤ t + leaseTTL
  unmade : ∀ c a t, s.gateway.agentKey c = some a → lastHeard hist a = some t →
    ¬(s.schedules c).MadeFor c → t = s.now

theorem Scheduled.timely (h : Scheduled hist s) (hkept : OnSchedule s ev) : Timely hist s ev := by
  cases ev with
  | wait ms =>
    intro c a t hkey hlast
    obtain ⟨hmade, hnext⟩ := hkept c a hkey
    exact hnext.trans (h.made c a t hkey hlast hmade)
  | _ => trivial

/-- The schedules after an event: a round of a receiver may change its own. -/
def State.schedulesAfter (s : State) : Event → ℕ → Schedule
  | .receiverRound c rand _ _ _ => Function.update s.schedules c (s.round c rand).1
  | _ => s.schedules

theorem schedules_through {schedules : ℕ → Schedule} {gev : Gateway.Event}
    (h : State.through d { s with schedules } gev = some s') : s'.schedules = schedules := by
  obtain ⟨g, -, rfl⟩ := Option.map_eq_some_iff.mp h
  rfl

theorem schedules_step (hstep : step d s ev = some s') : s'.schedules = s.schedulesAfter ev := by
  cases ev with
  | accept => exact schedules_through hstep
  | input c i ans => exact schedules_through hstep
  | close c => exact schedules_through hstep
  | receiverRound c rand agentID seq ans =>
    rw [step] at hstep
    split at hstep
    · exact absurd hstep (by simp)
    · dsimp only at hstep
      split_ifs at hstep
      · exact schedules_through hstep
      · obtain rfl := Option.some.inj hstep
        rfl
  | wait ms =>
    obtain rfl := Option.some.inj hstep
    rfl

/-- **What a round does to a schedule**: it is kept, or there is a new interval from now on, because a
heartbeat is sent or because there was no schedule. -/
theorem round_cases (s : State) (c rand : ℕ) : (s.round c rand).1.MadeFor c ∧
    ((s.round c rand).1 = s.schedules c ∨
      ((s.round c rand).1.nextHeartbeat = s.seconds + nextHeartbeatInterval rand ∧
        ((s.round c rand).2 = true ∨ ¬(s.schedules c).MadeFor c))) := by
  have hpos : s.seconds + nextHeartbeatInterval rand ≠ 0 := by
    rw [nextHeartbeatInterval]
    omega
  rw [State.round, sendHeartbeatIfDue, if_neg (by simp)]
  split_ifs with hnew hearly
  · refine ⟨⟨rfl, hpos⟩, .inr ⟨rfl, .inr fun hmade => ?_⟩⟩
    exact hnew.elim (fun hsock => hsock hmade.1) fun hnext => hmade.2 hnext
  · rw [not_or, not_not] at hnew
    exact ⟨hnew, .inl rfl⟩
  · rw [not_or, not_not] at hnew
    exact ⟨⟨hnew.1, hpos⟩, .inr ⟨rfl, .inl rfl⟩⟩

/-- **A step on schedule whose interval is short keeps the next heartbeats within the lease.** -/
theorem Scheduled.step (hd : d.Sound) (h : Tracks d hist s) (hs : Scheduled hist s)
    (hu : Undisturbed s ev) (hkept : OnSchedule s ev) (hshort : Short ev)
    (hstep : step d s ev = some s') : Scheduled ((s, ev) :: hist) s' := by
  have hscores := scores_of_stepped hd h hu (stepped_of_step hstep)
  have hnow : s.now ≤ s'.now := hscores.now ▸ Nat.le_add_right _ _
  -- who is heard is heard now, and the others were connected before
  have hlast : ∀ c a t, s'.gateway.agentKey c = some a →
      lastHeard ((s, ev) :: hist) a = some t →
        (ev.heard s = some a ∧ t = s.now) ∨
          (ev.heard s ≠ some a ∧ s.gateway.agentKey c = some a ∧ lastHeard hist a = some t) := by
    intro c a t hkey ht
    rw [lastHeard_cons] at ht
    split_ifs at ht with hheard
    · exact .inl ⟨hheard, (Option.some.inj ht).symm⟩
    · exact .inr ⟨hheard, (hscores.bound c a hkey).resolve_left hheard, ht⟩
  have hpasses : ∀ c a, s.gateway.agentKey c = some a → ¬(s.schedules c).MadeFor c →
      s'.now = s.now := by
    intro c a hkey hmade
    rw [hscores.now]
    cases ev with
    | wait ms => exact absurd (hkept c a hkey).1 hmade
    | _ => rfl
  have hheardNow : ∀ a, ev.heard s = some a → s'.now = s.now := by
    intro a hheard
    rw [hscores.now]
    cases ev with
    | wait ms => exact absurd hheard (by simp [Event.heard, Event.reads])
    | _ => rfl
  -- a connection whose schedule is kept
  have hsame : ∀ c, s'.schedules c = s.schedules c →
      (s'.schedules c).nextHeartbeat * 1000 ≤ s'.now + leaseTTL ∧
      ∀ a t, s'.gateway.agentKey c = some a → lastHeard ((s, ev) :: hist) a = some t →
        ((s'.schedules c).MadeFor c → (s'.schedules c).nextHeartbeat * 1000 ≤ t + leaseTTL) ∧
        (¬(s'.schedules c).MadeFor c → t = s'.now) := by
    intro c hc
    rw [hc]
    refine ⟨(hs.near c).trans (Nat.add_le_add_right hnow _), fun a t hkey ht => ?_⟩
    rcases hlast c a t hkey ht with ⟨hheard, rfl⟩ | ⟨-, hkey', ht'⟩
    · exact ⟨fun _ => hs.near c, fun _ => (hheardNow a hheard).symm⟩
    · refine ⟨hs.made c a t hkey' ht', fun hmade => ?_⟩
      rw [hs.unmade c a t hkey' ht' hmade, hpasses c a hkey' hmade]
  have hall : ∀ c, (s'.schedules c).nextHeartbeat * 1000 ≤ s'.now + leaseTTL ∧
      ∀ a t, s'.gateway.agentKey c = some a → lastHeard ((s, ev) :: hist) a = some t →
        ((s'.schedules c).MadeFor c → (s'.schedules c).nextHeartbeat * 1000 ≤ t + leaseTTL) ∧
        (¬(s'.schedules c).MadeFor c → t = s'.now) := by
    intro c
    have hschedules := schedules_step hstep
    cases ev with
    | receiverRound c₀ rand agentID seq ans =>
      by_cases hc : c = c₀
      · subst hc
        have hafter : s'.schedules c = (s.round c rand).1 := by
          rw [hschedules, State.schedulesAfter, Function.update_self]
        obtain ⟨hmade, hkeeps | ⟨hnext, hcause⟩⟩ := round_cases s c rand
        · exact hsame c (hafter.trans hkeeps)
        · -- the new interval begins now, and the agent has just been heard
          have hnear : (s'.schedules c).nextHeartbeat * 1000 ≤ s.now + leaseTTL := by
            have hseconds : s.seconds * 1000 ≤ s.now := Nat.div_mul_le_self _ _
            have hinterval : nextHeartbeatInterval rand * 1000 ≤ leaseTTL := hshort
            rw [hafter, hnext, Nat.add_mul]
            exact Nat.add_le_add hseconds hinterval
          refine ⟨hnear.trans (Nat.add_le_add_right hnow _), fun a t hkey ht => ?_⟩
          refine ⟨fun _ => ?_, fun hunmade => absurd (hafter ▸ hmade) hunmade⟩
          suffices hnowHeard : t = s.now from hnowHeard ▸ hnear
          rcases hlast c a t hkey ht with ⟨-, ht'⟩ | ⟨hheard, hkey', ht'⟩
          · exact ht'
          · rcases hcause with hsends | hunmade
            · refine absurd ?_ hheard
              rw [Event.heard, Event.reads, if_pos hsends]
              exact hkey'
            · exact hs.unmade c a t hkey' ht' hunmade
      · refine hsame c ?_
        rw [hschedules, State.schedulesAfter, Function.update_of_ne hc]
    | _ => exact hsame c (congrFun hschedules c)
  exact ⟨fun c => (hall c).1, fun c a t hkey ht => ((hall c).2 a t hkey ht).1,
    fun c a t hkey ht => ((hall c).2 a t hkey ht).2⟩

/-- **On schedule, the agents that are connected are online at every instant if no interval is longer than
the lease.** -/
theorem online_of_short (hd : d.Sound) {start : ℕ} {devices : Repo}
    {server : Redis.Server GoString}
    (h : Reach (step d) (fun _ s ev => Undisturbed s ev ∧ OnSchedule s ev ∧ Short ev)
      (.init start devices server) hist s) : OnlineThroughout d hist s := by
  suffices hall : Tracks d hist s ∧ Scheduled hist s ∧ OnlineThroughout d hist s from hall.2.2
  induction h with
  | start =>
    refine ⟨tracks_init d start devices server, ⟨fun c => ?_, fun c a t ha => ?_, fun c a t ha => ?_⟩,
      online_init d start devices server⟩
    · exact Nat.zero_mul 1000 ▸ Nat.zero_le _
    · exact absurd ((agentKey_init start devices server c).symm.trans ha) (by simp)
    · exact absurd ((agentKey_init start devices server c).symm.trans ha) (by simp)
  | next _ hok hstep ih =>
    obtain ⟨hu, hkept, hshort⟩ := hok
    obtain ⟨htracks, hscheduled, honline⟩ := ih
    refine ⟨htracks.step hd hu hstep, hscheduled.step hd htracks hu hkept hshort hstep, ?_, honline⟩
    exact (online_step_iff hd htracks hu hstep honline.last).mpr (hscheduled.timely hkept)

end Steps

/-! ### Two intervals -/

/-- The binding of a body that is a post. -/
def bindPost (body : List UInt8) : Option AgentEvent :=
  match Json.decode body with
  | some (.object [(_, .string event), (_, .string fbInstanceID), (_, .string tenantID),
      (_, .string agentID)]) => some { agentID, event := eventType event, tenantID, fbInstanceID }
  | _ => none

/-- A gateway with no settings of its own. -/
def plainDeployment : Deployment := ⟨{}, str "fb", bindPost⟩

theorem sound_plainDeployment : plainDeployment.Sound where
  enabled := rfl
  fbInstanceID := Json.of_plainASCII rfl
  tenantID := Json.of_plainASCII rfl
  bindJSON := by
    intro body p hdecode
    show bindPost body = _
    rw [bindPost, hdecode]
    rfl

/-- An agent connects, draws an interval, and time passes. -/
def waiting (rand ms : ℕ) : List Event :=
  [.accept, .input 0 (helloOf 0x61) {}, .receiverRound 0 rand 1 2 {}, .wait ms]

theorem Undisturbed.of_unread {s : State} {ev : Event} (hreads : ev.reads s = none)
    (hclose : ∀ c, ev ≠ .close c) : Undisturbed s ev where
  plain := fun _ _ _ _ h => absurd (hreads.symm.trans h) (by simp)
  fails := fun _ _ _ _ h => absurd (hreads.symm.trans h) (by simp)
  closes := fun c _ h => absurd h (hclose c)

theorem undisturbed_hello (s : State) : Undisturbed s (.input 0 (helloOf 0x61) {}) where
  plain := by
    rintro c i ans a hreads hann
    obtain ⟨rfl, rfl, rfl⟩ : 0 = c ∧ helloOf 0x61 = i ∧ ({} : Gateway.Answers) = ans := by
      simpa [Event.reads] using hreads
    have hnamed : (helloOf 0x61).announced = some [0x61] := by decide
    obtain rfl := Option.some.inj (hnamed.symm.trans hann)
    exact Json.of_plainASCII rfl
  fails := by
    rintro c i ans a hreads hfails
    obtain ⟨rfl, rfl, rfl⟩ : 0 = c ∧ helloOf 0x61 = i ∧ ({} : Gateway.Answers) = ans := by
      simpa [Event.reads] using hreads
    exact absurd hfails (by decide)
  closes := fun c _ h => nomatch h

set_option maxRecDepth 10000 in
theorem online_iff_timely_short :
    ∃ hist s, replay (step plainDeployment) [] (.init 0 .empty) (waiting 60 90000) =
      some (hist, s) ∧ s.gateway.agentKey 0 = some [0x61] ∧ OnlineThroughout plainDeployment hist s := by
  obtain ⟨s₀, s₁, s₂, s₃, s, hrun, hkey, hnow, hreads⟩ : ∃ s₀ s₁ s₂ s₃ s,
      replay (step plainDeployment) [] (.init 0 .empty) (waiting 60 90000) =
        some ([(s₃, .wait 90000), (s₂, .receiverRound 0 60 1 2 {}),
          (s₁, .input 0 (helloOf 0x61) {}), (s₀, .accept)], s) ∧
        s.gateway.agentKey 0 = some [0x61] ∧ s₃.now = 0 ∧
        (Event.receiverRound 0 60 1 2 {}).reads s₂ = none :=
    ⟨_, _, _, _, _, rfl, rfl, rfl, rfl⟩
  have hreach : Reach (step plainDeployment) (fun _ => Undisturbed) (.init 0 .empty) _ s :=
    (Reach.start.replay hrun).restrict (by
      intro p hp _
      simp only [List.mem_cons, List.not_mem_nil, or_false] at hp
      rcases hp with rfl | rfl | rfl | rfl
      · exact .of_unread rfl nofun
      · exact .of_unread hreads nofun
      · exact undisturbed_hello s₁
      · exact .of_unread rfl nofun)
  refine ⟨_, s, hrun, hkey, (online_iff_timely sound_plainDeployment hreach).mpr ?_⟩
  refine ⟨fun c a t _ _ => ?_, trivial, trivial, trivial, trivial⟩
  show s₃.now + leaseTTL ≤ t + leaseTTL
  rw [hnow]
  exact Nat.add_le_add_right (Nat.zero_le t) _

set_option maxRecDepth 10000 in
/-- An interval of 120 seconds, and the agent looks offline when 90 of them are over. -/
theorem not_online :
    ¬∀ (d : Deployment), d.Sound → ∀ (start : ℕ) (devices : Repo) (hist : History State Event) (s : State),
      Reach (step d) (fun _ s ev => Undisturbed s ev ∧ OnSchedule s ev) (.init start devices) hist s →
        OnlineThroughout d hist s := by
  intro h
  obtain ⟨s₀, s₁, s₂, s₃, s, hrun, hkey, hreads, hschedule, hnow, hoffline⟩ : ∃ s₀ s₁ s₂ s₃ s,
      replay (step plainDeployment) [] (.init 0 .empty) (waiting 90 90001) =
        some ([(s₃, .wait 90001), (s₂, .receiverRound 0 90 1 2 {}),
          (s₁, .input 0 (helloOf 0x61) {}), (s₀, .accept)], s) ∧
        s.gateway.agentKey 0 = some [0x61] ∧
        (Event.receiverRound 0 90 1 2 {}).reads s₂ = none ∧
        (s₃.schedules 0 = ⟨120, 0⟩ ∧ ∀ c, c ≠ 0 → s₃.gateway.agentKey c = none) ∧ s₃.now = 0 ∧
        s.stores.reg.isOnline plainDeployment.gateway.tenant [0x61] = false :=
    ⟨_, _, _, _, _, rfl, rfl, rfl, ⟨rfl, fun c hc => by
      obtain ⟨c, rfl⟩ := Nat.exists_eq_succ_of_ne_zero hc
      rfl⟩, rfl, by decide +kernel⟩
  have hreach : Reach (step plainDeployment) (fun _ s ev => Undisturbed s ev ∧ OnSchedule s ev)
      (.init 0 .empty) _ s := (Reach.start.replay hrun).restrict (by
      intro p hp _
      simp only [List.mem_cons, List.not_mem_nil, or_false] at hp
      rcases hp with rfl | rfl | rfl | rfl
      · refine ⟨.of_unread rfl nofun, fun c a hbound => ?_⟩
        by_cases hc : c = 0
        · rw [hc, hschedule.1, hnow]
          exact ⟨⟨rfl, by decide⟩, by decide⟩
        · exact absurd ((hschedule.2 c hc).symm.trans hbound) (by simp)
      · exact ⟨.of_unread hreads nofun, trivial⟩
      · exact ⟨undisturbed_hello s₁, trivial⟩
      · exact ⟨.of_unread rfl nofun, trivial⟩)
  have honline := (h plainDeployment sound_plainDeployment 0 .empty _ s hreach).1 0 [0x61] hkey
  rw [hoffline] at honline
  exact nomatch honline

end System

end Xsiam
