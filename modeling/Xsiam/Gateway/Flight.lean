import Xsiam.Gateway.Bound
import Xsiam.Gateway.Payload

/-!
# A flush in flight

`arango_flush_dirty_agents` builds its request from the agents that are dirty, waits for the
answer, and clears the flag of the agents that are dirty by then. While it waits the client may let
the event loop go on, and with it the handlers of the connections (`Xsiam.Gateway.flightStep`): an
agent they mark is cleared too, its document never sent.

After a success no flag is left. So nothing is lost exactly when each agent that is dirty as the
answer comes has been sent as it is then (`Xsiam.Gateway.noneLost_iff`), and nothing is lost in a
run whose handlers, as long as a request is in flight, leave no agent dirty that was not dirty
before with the same document (`Xsiam.Gateway.noneLost_of_quiet`). Connections that are bound to no
agent are such handlers, as long as they say no HELLO (`Xsiam.Gateway.quiet_of_unbound`).
-/

namespace Xsiam

namespace Gateway

open Run

/-! ### The machine -/

/-- The plugin, and the documents of the request that is in flight, by agent. -/
structure FlightState where
  plugin : State
  sent : Option (List (CString × List UInt8)) := none

/-- What happens: an event of the connections, a request that is sent, and its answer. -/
inductive FlightEvent where
  | gateway (ev : Event)
  | send
  | answer (ok : Bool)

/-- The documents of the agents that are dirty. -/
def dirtyDocs (t : AgentTable) : List (CString × List UInt8) :=
  (dirtyAgents t).map fun st => (st.agentID, agentDoc st)

/-- The two halves of `arango_flush_dirty_agents`, and the handlers between them. Without a dirty
agent there is no request. -/
def flightStep (cfg : Config) (fs : FlightState) : FlightEvent → Option FlightState
  | .gateway ev => (step cfg fs.plugin ev).map fun s => { fs with plugin := s }
  | .send =>
    match fs.sent with
    | some _ => none
    | none =>
      some (if (buildArangoPayload fs.plugin.agents).2 = 0 then fs
        else { fs with sent := some (dirtyDocs fs.plugin.agents) })
  | .answer ok =>
    match fs.sent, pluginStep cfg fs.plugin (.flush ok) with
    | some _, some s => some { plugin := s }
    | _, _ => none

/-- **No update is lost**: an agent that was dirty when the answer came, and whose document is not
the one that was sent, is dirty still. -/
def NoneLost (sent : List (CString × List UInt8)) (s s' : State) : Prop :=
  ∀ a st st', s.agents.find a = some st → st.dirty = true → (a, agentDoc st) ∉ sent →
    s'.agents.find a = some st' → st'.dirty = true

variable {cfg : Config}

/-! ### One answer -/

theorem mem_dirtyAgents {t : AgentTable} {st : Agent} :
    st ∈ dirtyAgents t ↔ t.find st.agentID = some st ∧ st.dirty = true := by
  rw [dirtyAgents, List.mem_filter, Table.mem_rows_iff]

theorem find_flushed (t : AgentTable) (now : ℤ) (a : CString) :
    (t.mapRows (flushed now) (flushed_agentID now)).find a = (t.find a).map (flushed now) :=
  Table.find_mapRows (flushed_agentID now) a

/-- **When an answer loses nothing**: every agent that is dirty was sent as it is. -/
theorem noneLost_iff {fs fs' : FlightState} {sent : List (CString × List UInt8)}
    (hstep : flightStep cfg fs (.answer true) = some fs') :
    NoneLost sent fs.plugin fs'.plugin ↔ dirtyDocs fs.plugin.agents ⊆ sent := by
  have hfind : ∀ a, fs'.plugin.agents.find a =
      (fs.plugin.agents.find a).map (flushed fs.plugin.now) := by
    intro a
    rw [flightStep] at hstep
    split at hstep
    · next s _ hs =>
      rw [← Option.some.inj hstep, ← Option.some.inj hs]
      exact find_flushed _ _ a
    · exact absurd hstep (by simp)
  constructor
  · rintro h ⟨a, doc⟩ hdoc
    obtain ⟨st, hst, heq⟩ := List.mem_map.mp hdoc
    obtain ⟨rfl, rfl⟩ := Prod.mk.inj heq
    obtain ⟨hst, hdirty⟩ := mem_dirtyAgents.mp hst
    by_contra hnot
    -- its flag is cleared, and it was not sent
    have hafter := h st.agentID st _ hst hdirty hnot (by rw [hfind, hst, Option.map_some])
    rw [flushed, if_pos hdirty] at hafter
    exact absurd hafter (by simp)
  · intro h a st st' hst hdirty hnot _
    obtain rfl := Table.key_of_find hst
    exact absurd (h (List.mem_map_of_mem (mem_dirtyAgents.mpr ⟨hst, hdirty⟩))) hnot

/-! ### Runs -/

/-- A handler leaves an agent dirty that was not dirty before with the same document. -/
def Marks (cfg : Config) (s : State) (ev : Event) : Prop :=
  ∃ s', step cfg s ev = some s' ∧ ¬dirtyDocs s'.agents ⊆ dirtyDocs s.agents

/-- While a request is in flight no handler marks an agent. -/
def Quiet (cfg : Config) : History FlightState FlightEvent → FlightState → FlightEvent → Prop
  | _, fs, .gateway ev => fs.sent.isSome = true → ¬Marks cfg fs.plugin ev
  | _, _, _ => True

/-- In a quiet run the agents that are dirty were sent as they are. -/
theorem dirtyDocs_of_quiet {now : ℤ} {hist : History FlightState FlightEvent} {fs : FlightState}
    (h : Reach (flightStep cfg) (Quiet cfg) { plugin := .init now } hist fs) :
    ∀ sent, fs.sent = some sent → dirtyDocs fs.plugin.agents ⊆ sent := by
  refine @Reach.invariant _ _ (flightStep cfg) (Quiet cfg) { plugin := .init now }
    (fun _ fs => ∀ sent, fs.sent = some sent → dirtyDocs fs.plugin.agents ⊆ sent)
    (fun _ h => absurd h (by simp)) ?_ hist fs h
  intro hist fs fs' ev hfs hquiet hstep sent hsent
  cases ev with
  | gateway ev =>
    obtain ⟨s', hs', rfl⟩ := Option.map_eq_some_iff.mp hstep
    have hnot := hquiet (by rw [show fs.sent = some sent from hsent]; rfl)
    intro doc hdoc
    by_contra hout
    exact hnot ⟨s', hs', fun hsub => hout (hfs sent hsent (hsub hdoc))⟩
  | send =>
    rw [flightStep] at hstep
    split at hstep
    · exact absurd hstep (by simp)
    · next hnone =>
      obtain rfl := Option.some.inj hstep
      split_ifs at hsent ⊢
      · exact absurd (hnone.symm.trans hsent) (by simp)
      · obtain rfl := Option.some.inj hsent
        exact List.Subset.refl _
  | answer ok =>
    rw [flightStep] at hstep
    split at hstep
    · obtain rfl := Option.some.inj hstep
      exact absurd hsent (by simp)
    · exact absurd hstep (by simp)

/-- **A flush loses nothing in a run whose handlers mark no agent while its request is in
flight.** -/
theorem noneLost_of_quiet {now : ℤ} {hist : History FlightState FlightEvent}
    {fs fs' : FlightState} {sent : List (CString × List UInt8)}
    (h : Reach (flightStep cfg) (Quiet cfg) { plugin := .init now } hist fs)
    (hsent : fs.sent = some sent) (hstep : flightStep cfg fs (.answer true) = some fs') :
    NoneLost sent fs.plugin fs'.plugin :=
  (noneLost_iff hstep).mpr (dirtyDocs_of_quiet h sent hsent)

/-! ### Handlers that mark nobody -/

/-- An event of a connection that is bound to no agent, and that binds it to none. -/
def Unbound (s : State) : Event → Prop
  | .accept => True
  | .input c i _ => s.agentKey c = none ∧ i.announced = none
  | .close c => s.agentKey c = none
  | .wait _ => True

theorem agents_connDel {s : State} {c : ℕ} (h : s.agentKey c = none) :
    (connDel cfg s c).agents = s.agents := by
  rw [connDel, h]

theorem agents_sendAck (s : State) (c : ℕ) (seq : UInt64) (ans : Answers) :
    (s.sendAck c seq ans).1.agents = s.agents := by
  rw [State.sendAck]
  split_ifs <;> rfl

theorem agents_hand (s : State) (records : List LogRecord) : (s.hand records).agents = s.agents := by
  rw [State.hand]
  split_ifs <;> rfl

theorem agents_refresh {s : State} {c : ℕ} (h : s.agentKey c = none) :
    (s.refresh cfg c).agents = s.agents := by
  rw [State.refresh, h]

/-- What an unbound connection reads leaves the table as it is. -/
theorem agents_process {s : State} {c : ℕ} {conn : Conn} {i : Input} (ans : Answers)
    (hget : s.conns.get c = some conn) (hkey : s.agentKey c = none) (hi : i.announced = none) :
    (process cfg s c conn ans i).1.agents = s.agents := by
  have hclass : ∀ conn' : Conn, conn'.agentKey = conn.agentKey →
      (s.setConn c fun _ => conn').agentKey c = none := by
    intro conn' hconn
    rw [agentKey_setConn, if_pos rfl, hget, Option.bind_some, hconn, ← agentKey_of_get hget, hkey]
  cases i with
  | syslog text =>
    rw [process, processSyslogLines]
    split_ifs
    · exact agents_hand _ _
    · rfl
  | frame f =>
    rw [process, processFrame]
    have hbound := hclass (conn.classify (Go.str "agent_wzcp") (Go.str "agent")) rfl
    split_ifs with hhello hbeat hbatch
    · rw [Input.announced, if_pos hhello] at hi
      rw [processHello]
      split
      · rfl
      · next hello hparse =>
        -- a HELLO that names nobody
        rw [hparse] at hi
        have hid : hello.agentID = [] := by
          by_contra hne
          simp [hne] at hi
        rw [agents_sendAck, State.mark, markSeen, if_pos hid]
        rfl
    · rw [agents_sendAck, agents_refresh hbound]
      rfl
    · rw [processEventBatch]
      split
      · exact agents_refresh hbound
      · split_ifs
        · rw [agents_sendAck, agents_hand]
          exact agents_refresh hbound
        · exact agents_refresh hbound
    · rfl

/-- **A connection that is bound to no agent marks nobody**, as long as it says no HELLO. -/
theorem quiet_of_unbound {hist : History FlightState FlightEvent} {fs : FlightState} {ev : Event}
    (h : Unbound fs.plugin ev) : Quiet cfg hist fs (.gateway ev) := by
  rintro - ⟨s', hstep, hnot⟩
  refine hnot ?_
  suffices hsame : s'.agents = fs.plugin.agents by
    rw [hsame]
    exact List.Subset.refl _
  cases ev with
  | accept => rw [← Option.some.inj hstep]
  | wait seconds => rw [← Option.some.inj hstep]
  | close c =>
    rw [step_close hstep]
    exact agents_connDel h
  | input c i ans =>
    obtain ⟨conn, hget, hstep⟩ := step_input hstep
    have hsame : (process cfg fs.plugin c conn ans i).1.agents = fs.plugin.agents :=
      agents_process ans hget h.1 h.2
    rw [hstep]
    split_ifs
    · exact hsame
    · -- the connection ends, bound to no agent still
      have hview : (process cfg fs.plugin c conn ans i).1.view = fs.plugin.view := by
        rw [view_process hget, h.2]
        rfl
      have hkey : (process cfg fs.plugin c conn ans i).1.agentKey c = none :=
        (congrFun (congrArg (fun v => v.1) hview) c).trans h.1
      rw [agents_connDel hkey, hsame]

/-! ### Two runs -/

/-- An agent announces itself, and a request is sent. -/
def oneSent : List FlightEvent :=
  [.gateway .accept, .gateway (.input 0 (helloOf 0x61) {}), .send]

/-- While the request is in flight, another connection comes up and hands over a log line. -/
theorem noneLost_of_quiet_line :
    ∃ hist fs fs' sent, Reach (flightStep {}) (Quiet {}) { plugin := .init 0 } hist fs ∧
      fs.sent = some sent ∧ sent.length = 1 ∧ fs.plugin.handed.length = 1 ∧
      flightStep {} fs (.answer true) = some fs' ∧ NoneLost sent fs.plugin fs'.plugin := by
  obtain ⟨s₁, s₂, s₃, s₄, s₅, s₆, fs', sent, h₁, h₂, h₃, h₄, h₅, h₆, hfs', hsent, hone, hline, hn₁,
      hn₂, hkey⟩ :
      ∃ s₁ s₂ s₃ s₄ s₅ s₆ fs' sent,
        flightStep {} { plugin := .init 0 } (.gateway .accept) = some s₁ ∧
        flightStep {} s₁ (.gateway (.input 0 (helloOf 0x61) {})) = some s₂ ∧
        flightStep {} s₂ .send = some s₃ ∧
        flightStep {} s₃ (.gateway .accept) = some s₄ ∧
        flightStep {} s₄ (.gateway (.input 1 (.syslog (Go.str "<13>up\n")) {})) = some s₅ ∧
        flightStep {} s₅ (.gateway (.wait 1)) = some s₆ ∧
        flightStep {} s₆ (.answer true) = some fs' ∧ s₆.sent = some sent ∧ sent.length = 1 ∧
        s₆.plugin.handed.length = 1 ∧ s₁.sent.isSome = false ∧ s₂.sent.isSome = false ∧
        s₄.plugin.agentKey 1 = none :=
    ⟨_, _, _, _, _, _, _, _, rfl, rfl, rfl, rfl, rfl, rfl, rfl, rfl, rfl, rfl, rfl, rfl, rfl⟩
  have hreach : Reach (flightStep {}) (Quiet {}) { plugin := .init 0 } _ s₆ :=
    (((((Reach.start.next (fun h => absurd h (by simp)) h₁).next
      (fun h => absurd h (by simp [hn₁])) h₂).next trivial h₃).next
        (quiet_of_unbound (show Unbound s₃.plugin .accept from trivial)) h₄).next
          (quiet_of_unbound (show Unbound s₄.plugin (.input 1 (.syslog _) {}) from ⟨hkey, rfl⟩)) h₅).next
            (quiet_of_unbound (show Unbound s₅.plugin (.wait 1) from trivial)) h₆
  exact ⟨_, s₆, fs', sent, hreach, hsent, hone, hline, hfs', noneLost_of_quiet hreach hsent hfs'⟩

/-- A second agent announces itself while the request of the first one is in flight. Its flag is
cleared with the other one's. -/
theorem not_noneLost :
    ¬∀ (cfg : Config) (now : ℤ) (hist : History FlightState FlightEvent)
      (fs fs' : FlightState) (sent : List (CString × List UInt8)),
      Reach (flightStep cfg) Any { plugin := .init now } hist fs → fs.sent = some sent →
        flightStep cfg fs (.answer true) = some fs' → NoneLost sent fs.plugin fs'.plugin := by
  intro h
  obtain ⟨hist, fs, fs', sent, hrun, hsent, hfs', hids, hdirty⟩ : ∃ hist fs fs' sent,
      replay (flightStep {}) [] { plugin := .init 0 }
        (oneSent ++ [.gateway .accept, .gateway (.input 1 (helloOf 0x62) {})]) =
          some (hist, fs) ∧ fs.sent = some sent ∧
        flightStep {} fs (.answer true) = some fs' ∧ sent.map Prod.fst = [[0x61]] ∧
        (dirtyDocs fs.plugin.agents).map Prod.fst = [[0x61], [0x62]] :=
    ⟨_, _, _, _, rfl, rfl, rfl, rfl, rfl⟩
  have hlost := (noneLost_iff hfs').mp (h {} 0 hist fs fs' sent (Reach.start.replay hrun) hsent hfs')
  -- the second agent is dirty, and was not sent
  have hmem : ([0x62] : CString) ∈ (dirtyDocs fs.plugin.agents).map Prod.fst := by
    rw [hdirty]
    simp
  obtain ⟨doc, hdoc, hid⟩ := List.mem_map.mp hmem
  have hin := List.mem_map_of_mem (f := Prod.fst) (hlost hdoc)
  rw [hids, hid] at hin
  exact absurd hin (by decide)

end Gateway

end Xsiam
