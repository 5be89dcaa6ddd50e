import Xsiam.Gateway.Escape
import Xsiam.Gateway.Kept

/-!
# The devices of a flush

`xsiam_agent_arango.c` writes the documents of all agents that changed since the last flush into
one query (`Xsiam.Gateway.buildArangoPayload`). Its strings are escaped; the list of addresses was
escaped when a HELLO brought it, and is pasted as it is, which is right in every state of a run
(`Xsiam.Gateway.wellMade_of_reach`). So what is sent is the text of a JSON value, with a document of
each of these agents in the order of the table (`Xsiam.Gateway.buildArangoPayload_eq`).
-/

namespace Xsiam

namespace Gateway

open Go (str)

open Run

/-! ### Times -/

/-- A date. -/
structure Date where
  year : ℤ
  month : ℕ
  day : ℕ
deriving DecidableEq

/-- The date of a day, counted from the first of January 1970. -/
def dateOfDay (day : ℤ) : Date :=
  -- counted from the first of March of the year 0, in eras of 400 years
  let z := day + 719468
  let era := z / 146097
  let doe := (z % 146097).toNat
  let yoe := (doe - doe / 1460 + doe / 36524 - doe / 146096) / 365
  let doy := doe - (365 * yoe + yoe / 4 - yoe / 100)
  let mp := (5 * doy + 2) / 153
  let month := if mp < 10 then mp + 3 else mp - 9
  { year := yoe + era * 400 + if month ≤ 2 then 1 else 0
    month
    day := doy - (153 * mp + 2) / 5 + 1 }

/-- A number in decimal. -/
def decimal (n : ℕ) : CString := (Nat.toDigits 10 n).map fun c => UInt8.ofNat c.toNat

/-- A year, as `%Y` prints it. -/
def formatYear (year : ℤ) : CString :=
  if year < 0 then 0x2D :: decimal year.natAbs else decimal year.natAbs

/-- A number of two digits. -/
def twoDigits (n : ℕ) : CString := (if n < 10 then [0x30] else []) ++ decimal n

/-- `gmtime_r` and `strftime`, with `%Y-%m-%dT%H:%M:%SZ` -/
def formatTime (time : ℤ) : CString :=
  let date := dateOfDay (time / 86400)
  let sec := (time % 86400).toNat
  formatYear date.year ++ [0x2D] ++ twoDigits date.month ++ [0x2D] ++ twoDigits date.day ++ [0x54] ++
    twoDigits (sec / 3600) ++ [0x3A] ++ twoDigits (sec / 60 % 60) ++ [0x3A] ++ twoDigits (sec % 60) ++
    [0x5A]

example : formatTime 951827696 = str "2000-02-29T12:34:56Z" := by decide

/-! ### The payload -/

/-- `append_json_string_field` -/
def jsonStringField (name value : CString) : List UInt8 :=
  [0x22] ++ name ++ [0x22, 0x3A, 0x22] ++ jsonEscape value ++ [0x22]

/-- `append_json_time_field` -/
def jsonTimeField (name : CString) (value : ℤ) : List UInt8 :=
  jsonStringField name (formatTime value)

/-- `agent_status` -/
def Status.text : Status → CString
  | .online => str "online"
  | .offline => str "offline"

/-- `device_key` -/
def Agent.deviceKey (st : Agent) : CString := str "device-" ++ st.agentID

/-- `append_agent_doc` -/
def agentDoc (st : Agent) : List UInt8 :=
  str "\x7b" ++
  jsonStringField (str "_key") st.deviceKey ++ str "," ++
  jsonStringField (str "device_id") st.deviceKey ++ str "," ++
  jsonStringField (str "tenant_id") st.tenantID ++ str "," ++
  jsonStringField (str "agent_id") st.agentID ++ str "," ++
  jsonStringField (str "gateway_id") st.gatewayID ++ str "," ++
  jsonStringField (str "hostname") st.hostname ++ str "," ++
  jsonStringField (str "host_type") st.hostType ++ str "," ++
  jsonStringField (str "ip") st.ip ++
  str ",\"ip_addresses\":[],\"mac_addresses\":" ++ st.macAddressesJSON ++ str "," ++
  jsonStringField (str "os_type") (str "windows") ++ str "," ++
  jsonStringField (str "os_version") [] ++ str "," ++
  jsonStringField (str "agent_version") st.agentVersion ++ str "," ++
  jsonStringField (str "agent_status") st.agentStatus.text ++
  (if st.isConnected then str ",\"is_connected\":true," else str ",\"is_connected\":false,") ++
  jsonStringField (str "protocol") (str "wzcp") ++ str ",\"protocol_version\":1," ++
  jsonTimeField (str "installed_at") st.installedAt ++ str "," ++
  jsonTimeField (str "enrolled_at") st.installedAt ++ str "," ++
  jsonTimeField (str "last_heartbeat") st.lastHeartbeat ++ str "," ++
  jsonTimeField (str "last_seen") st.lastSeen ++ str "," ++
  jsonTimeField (str "created_at") st.createdAt ++ str "," ++
  jsonTimeField (str "updated_at") st.updatedAt ++ str "\x7d"

/-- The loop of `build_arango_payload`, with what it has written and counted. -/
def appendDirty : List Agent → List UInt8 → ℕ → List UInt8 × ℕ
  | [], s, count => (s, count)
  | st :: sts, s, count =>
    if st.dirty then
      appendDirty sts ((if count > 0 then s ++ str "," else s) ++ agentDoc st) (count + 1)
    else appendDirty sts s count

/-- The query of the payload. -/
def upsertQuery : CString :=
  str "FOR doc IN @devices UPSERT \x7bagent_id: doc.agent_id\x7d INSERT doc UPDATE MERGE(OLD, UNSET(doc, '_key')) IN devices"

/-- `build_arango_payload`, with the number of documents -/
def buildArangoPayload (t : AgentTable) : List UInt8 × ℕ :=
  let r := appendDirty t.rows (str "\x7b\"query\":\"" ++ upsertQuery ++
    str "\",\"bindVars\":\x7b\"devices\":[") 0
  (r.1 ++ str "]\x7d\x7d", r.2)

/-! ### Flushes -/

/-- An entry as a flush that succeeds leaves it. -/
def flushed (now : ℤ) (st : Agent) : Agent :=
  if st.dirty then { st with dirty := false, lastDBFlush := now } else st

theorem flushed_agentID (now : ℤ) (st : Agent) : (flushed now st).agentID = st.agentID := by
  rw [flushed]
  split_ifs <;> rfl

/-- What happens to the plugin: an event of its connections, or a flush, which the database
answers or not. -/
inductive PluginEvent where
  | gateway (ev : Event)
  | flush (ok : Bool)

/-- One event. -/
def pluginStep (cfg : Config) (s : State) : PluginEvent → Option State
  | .gateway ev => step cfg s ev
  | .flush ok =>
    some (if ok then { s with agents := s.agents.mapRows (flushed s.now) (flushed_agentID s.now) }
      else s)

/-! ### What is stored -/

/-- An entry as the handlers make them: its addresses are a list that was written, and what is no
agent's choice is UTF-8. -/
structure WellMade (st : Agent) : Prop where
  macs : ∃ macs, st.macAddressesJSON = macAddressesJSON macs
  hostType : Json.Utf8 st.hostType
  gatewayID : Json.Utf8 st.gatewayID
  ip : Json.Utf8 st.ip

theorem wellMade_newAgent (cfg : Config) (now : ℤ) (agentID : CString) :
    WellMade (newAgent cfg now agentID) where
  macs := ⟨[], rfl⟩
  hostType := by
    have hpc : Json.Utf8 (str "pc") := by decide
    exact hpc
  gatewayID := by
    have hlocal : Json.Utf8 (str "gateway-local-001") := by decide
    exact hlocal
  ip := Json.utf8_nil

/-- The addresses of a HELLO, if it has any, are a list that was written. -/
theorem macs_of_parseHello {body : List UInt8} {hello : Hello} (h : parseHello body = some hello) :
    ∀ json ∈ hello.macAddressesJSON, ∃ macs, json = macAddressesJSON macs := by
  have hhost : ∀ {v off host}, readHost v body off = some host →
      ∀ json ∈ host.2, ∃ macs, json = macAddressesJSON macs := by
    intro v off host hhost json hjson
    rw [readHost] at hhost
    split_ifs at hhost
    · split at hhost
      · exact absurd hhost (by simp)
      · split_ifs at hhost
        obtain ⟨macs, -, rfl⟩ := Option.map_eq_some_iff.mp hhost
        exact ⟨macs, (Option.some.inj hjson).symm⟩
    · obtain rfl := Option.some.inj hhost
      exact absurd hjson (by simp)
  rw [parseHello] at h
  split_ifs at h
  split at h
  · exact absurd h (by simp)
  · split at h
    · exact absurd h (by simp)
    · split at h
      · exact absurd h (by simp)
      · obtain ⟨host, hread, rfl⟩ := Option.map_eq_some_iff.mp h
        exact hhost hread

theorem WellMade.seen {st : Agent} (h : WellMade st) (now : ℤ) {body : List UInt8} {hello : Hello}
    (hparse : parseHello body = some hello) : WellMade (seen now hello st) where
  macs := by
    rw [Gateway.seen]
    cases hmacs : hello.macAddressesJSON with
    | none => exact h.macs
    | some json => exact macs_of_parseHello hparse json hmacs
  hostType := by
    rw [Gateway.seen]
    dsimp only
    split_ifs with htype
    · rcases htype with htype | htype
      · rw [htype]
        decide
      · rw [htype]
        decide
    · exact h.hostType
  gatewayID := h.gatewayID
  ip := h.ip

theorem WellMade.of_eq {st st' : Agent} (h : WellMade st)
    (hmacs : st'.macAddressesJSON = st.macAddressesJSON) (htype : st'.hostType = st.hostType)
    (hgateway : st'.gatewayID = st.gatewayID) (hip : st'.ip = st.ip) : WellMade st' :=
  ⟨hmacs ▸ h.macs, htype ▸ h.hostType, hgateway ▸ h.gatewayID, hip ▸ h.ip⟩

/-- All entries of the table are. -/
def WellMadeAll (s : State) : Prop := ∀ st ∈ s.agents.rows, WellMade st

theorem kept_wellMadeAll (cfg : Config) : Kept cfg WellMadeAll where
  accept := id
  wait := fun _ => id
  classify := fun _ _ _ => id
  greet := by
    intro s body hello c hparse h
    show ∀ st ∈ (markSeen cfg s.now s.agents hello).1.rows, WellMade st
    rw [markSeen]
    split_ifs
    · exact h
    · exact Table.forall_modify (Table.forall_add h (wellMade_newAgent cfg s.now _))
        (seen_agentID s.now hello) fun st hst => hst.seen s.now hparse
  refresh := by
    intro s c h
    rw [State.refresh]
    split
    · exact h
    · next id _ =>
      show ∀ st ∈ (markHeartbeat cfg s.now s.agents id).1.rows, WellMade st
      rw [markHeartbeat]
      split
      · exact h
      · exact Table.forall_modify h (refreshed_agentID cfg s.now) fun st hst =>
          hst.of_eq rfl rfl rfl rfl
  ack := fun _ _ => id
  hand := fun _ => id
  connDel := by
    intro s c h
    rw [connDel]
    split
    · exact h
    · next id _ =>
      show ∀ st ∈ (markDisconnected cfg s.now s.agents id).1.rows, WellMade st
      rw [markDisconnected]
      split
      · exact h
      · split_ifs
        · exact Table.forall_modify h (disconnected_agentID s.now) fun st hst =>
            hst.of_eq rfl rfl rfl rfl
        · exact h

theorem wellMade_flushed {now : ℤ} {st : Agent} (h : WellMade st) : WellMade (flushed now st) := by
  rw [flushed]
  split_ifs
  · exact h.of_eq rfl rfl rfl rfl
  · exact h

/-- **Every entry of a table is as the handlers make them**, in all states of a run. -/
theorem wellMade_of_reach {cfg : Config} {now : ℤ}
    {ok : History State PluginEvent → State → PluginEvent → Prop}
    {hist : History State PluginEvent} {s : State}
    (h : Reach (pluginStep cfg) ok (.init now) hist s) : WellMadeAll s := by
  refine @Reach.invariant _ _ (pluginStep cfg) ok (.init now) (fun _ s => WellMadeAll s)
    (fun st hst => absurd hst List.not_mem_nil) ?_ hist s h
  intro hist s s' ev hs _ hstep
  cases ev with
  | gateway ev => exact (kept_wellMadeAll cfg).step hs hstep
  | flush answered =>
    obtain rfl := Option.some.inj hstep
    split_ifs
    · intro st hst
      obtain ⟨st₀, hst₀, rfl⟩ := List.mem_map.mp hst
      exact wellMade_flushed (hs st₀ hst₀)
    · exact hs

/-! ### What a payload is to say -/

/-- The document of an agent, with its addresses. -/
def agentFields (st : Agent) (macs : List CString) : List (List UInt8 × Json) :=
  [(str "_key", .string st.deviceKey), (str "device_id", .string st.deviceKey),
    (str "tenant_id", .string st.tenantID), (str "agent_id", .string st.agentID),
    (str "gateway_id", .string st.gatewayID), (str "hostname", .string st.hostname),
    (str "host_type", .string st.hostType), (str "ip", .string st.ip),
    (str "ip_addresses", .array []), (str "mac_addresses", .array (macs.map .string)),
    (str "os_type", .string (str "windows")), (str "os_version", .string []),
    (str "agent_version", .string st.agentVersion),
    (str "agent_status", .string st.agentStatus.text), (str "is_connected", .bool st.isConnected),
    (str "protocol", .string (str "wzcp")), (str "protocol_version", .number (str "1")),
    (str "installed_at", .string (formatTime st.installedAt)),
    (str "enrolled_at", .string (formatTime st.installedAt)),
    (str "last_heartbeat", .string (formatTime st.lastHeartbeat)),
    (str "last_seen", .string (formatTime st.lastSeen)),
    (str "created_at", .string (formatTime st.createdAt)),
    (str "updated_at", .string (formatTime st.updatedAt))]

/-- A document says what is stored of an agent. -/
def Documents (st : Agent) (doc : Json) : Prop :=
  ∃ macs, st.macAddressesJSON = macAddressesJSON macs ∧ doc = .object (agentFields st macs)

/-- The payload of some documents. -/
def payloadOf (docs : List Json) : Json :=
  .object [(str "query", .string upsertQuery), (str "bindVars", .object [(str "devices", .array docs)])]

/-- The agents of a flush. -/
def dirtyAgents (t : AgentTable) : List Agent := t.rows.filter (·.dirty)

/-- **What a payload is to be**: JSON, with one document for each agent that is to be flushed, in
the order of the table. -/
def PayloadRight (t : AgentTable) : Prop :=
  ∃ docs, Json.decode (buildArangoPayload t).1 = some (payloadOf docs) ∧
    List.Forall₂ Documents (dirtyAgents t) docs ∧ (buildArangoPayload t).2 = docs.length

/-- The strings of an agent that a HELLO or the configuration chose are UTF-8. -/
structure Utf8Agent (st : Agent) : Prop where
  agentID : Json.Utf8 st.agentID
  tenantID : Json.Utf8 st.tenantID
  hostname : Json.Utf8 st.hostname
  agentVersion : Json.Utf8 st.agentVersion
  macs : Json.Utf8 st.macAddressesJSON

/-! ### What is written -/

theorem quoted_eq (mac : CString) : quoted mac = Json.quote jsonEscapeByte mac := rfl

/-- The list of addresses is an array of strings. -/
theorem macAddressesJSON_eq (macs : List CString) :
    macAddressesJSON macs = Json.write jsonEscapeByte (.array (macs.map .string)) := by
  have helements : ∀ macs : List CString, [0x2C].intercalate (macs.map quoted) =
      Json.writeElements jsonEscapeByte (macs.map .string) := by
    intro macs
    induction macs with
    | nil => rfl
    | cons mac macs ih =>
      rcases macs with _ | ⟨mac', macs⟩
      · rw [List.map_singleton, List.map_singleton, List.intercalate_singleton,
          Json.writeElements_singleton, Json.write_string, quoted_eq]
      · rw [List.map_cons, List.map_cons, List.intercalate_cons_cons, ← List.map_cons, ih,
          List.map_cons, List.map_cons, List.map_cons, Json.writeElements_cons_cons,
          Json.write_string, quoted_eq, List.append_assoc, List.singleton_append]
  rw [macAddressesJSON, helements, Json.write_array, List.append_assoc, List.singleton_append]

theorem jsonStringField_eq {name : CString} (hname : Json.Clean name) (value : CString) :
    jsonStringField name value =
      Json.quote jsonEscapeByte name ++ 0x3A :: Json.quote jsonEscapeByte value := by
  rw [jsonStringField, quote_of_clean hname, Json.quote, jsonEscape]
  simp only [List.append_assoc, List.cons_append, List.nil_append]

/-- **The document of an agent is JSON**, as long as its addresses are. -/
theorem agentDoc_eq {st : Agent} {macs : List CString}
    (hmacs : st.macAddressesJSON = macAddressesJSON macs) :
    agentDoc st = Json.write jsonEscapeByte (.object (agentFields st macs)) := by
  have hip : str ",\"ip_addresses\":[],\"mac_addresses\":" =
      0x2C :: (Json.quote jsonEscapeByte (str "ip_addresses") ++ 0x3A ::
        Json.write jsonEscapeByte (.array [])) ++ 0x2C ::
          (Json.quote jsonEscapeByte (str "mac_addresses") ++ [0x3A]) := rfl
  have hconnected : (if st.isConnected then str ",\"is_connected\":true,"
      else str ",\"is_connected\":false,") =
        0x2C :: (Json.quote jsonEscapeByte (str "is_connected") ++ 0x3A ::
          (Json.write jsonEscapeByte (.bool st.isConnected) ++ [0x2C])) := by
    cases st.isConnected <;> rfl
  have hversion : str ",\"protocol_version\":1," =
      0x2C :: (Json.quote jsonEscapeByte (str "protocol_version") ++ 0x3A ::
        (Json.write jsonEscapeByte (.number (str "1")) ++ [0x2C])) := rfl
  have hcomma : str "," = [0x2C] := rfl
  have hopen : str "\x7b" = [0x7B] := rfl
  have hclose : str "\x7d" = [0x7D] := rfl
  unfold agentDoc
  simp only [jsonTimeField, hcomma, hopen, hclose, hip, hconnected, hversion, hmacs,
    macAddressesJSON_eq]
  simp (disch := exact (Json.of_plainASCII rfl).1) only [jsonStringField_eq]
  simp only [agentFields, Json.write_object, Json.writeMembers_cons_cons,
    Json.writeMembers_singleton, Json.write_string, List.append_assoc, List.cons_append,
    List.nil_append]

/-- The documents of the agents that are to be flushed. -/
theorem exists_docs : ∀ {sts : List Agent}, (∀ st ∈ sts, WellMade st) →
    ∃ docs, List.Forall₂ Documents (sts.filter (·.dirty)) docs
  | [], _ => ⟨[], .nil⟩
  | st :: sts, h => by
    obtain ⟨docs, hdocs⟩ := exists_docs fun st' hst' => h st' (List.mem_cons_of_mem st hst')
    obtain ⟨macs, hmacs⟩ := (h st List.mem_cons_self).macs
    rw [List.filter_cons]
    split_ifs
    · exact ⟨_, .cons ⟨macs, hmacs, rfl⟩ hdocs⟩
    · exact ⟨docs, hdocs⟩

theorem agentDoc_of_documents {st : Agent} {doc : Json} (h : Documents st doc) :
    agentDoc st = Json.write jsonEscapeByte doc := by
  obtain ⟨macs, hmacs, rfl⟩ := h
  exact agentDoc_eq hmacs

/-- The loop once it has written a document: every other one comes behind a comma. -/
theorem appendDirty_succ : ∀ {sts : List Agent} {docs : List Json},
    List.Forall₂ Documents (sts.filter (·.dirty)) docs → ∀ (s : List UInt8) (count : ℕ),
      appendDirty sts s (count + 1) =
        (s ++ docs.flatMap fun doc => 0x2C :: Json.write jsonEscapeByte doc, count + 1 + docs.length)
  | [], _, h, s, count => by
    cases h
    rw [appendDirty, List.flatMap_nil, List.append_nil, List.length_nil, add_zero]
  | st :: sts, docs, h, s, count => by
    rw [appendDirty]
    rw [List.filter_cons] at h
    split_ifs at h ⊢ with hdirty hpos
    · cases h with
      | @cons _ doc _ docs hdoc hdocs =>
        have hcomma : str "," = [0x2C] := rfl
        rw [appendDirty_succ hdocs, agentDoc_of_documents hdoc, hcomma, List.flatMap_cons,
          List.length_cons, List.append_assoc, List.append_assoc, List.cons_append,
          List.cons_append, List.nil_append, Nat.add_right_comm (count + 1), Nat.add_assoc (count + 1)]
    · exact absurd (Nat.succ_pos count) hpos
    · exact appendDirty_succ h s count

/-- **The loop writes the elements of an array.** -/
theorem appendDirty_zero : ∀ {sts : List Agent} {docs : List Json},
    List.Forall₂ Documents (sts.filter (·.dirty)) docs → ∀ s : List UInt8,
      appendDirty sts s 0 = (s ++ Json.writeElements jsonEscapeByte docs, docs.length)
  | [], _, h, s => by
    cases h
    rw [appendDirty, Json.writeElements, List.append_nil, List.length_nil]
  | st :: sts, docs, h, s => by
    rw [appendDirty]
    rw [List.filter_cons] at h
    split_ifs at h ⊢ with hdirty hpos
    · exact absurd hpos (lt_irrefl 0)
    · cases h with
      | @cons _ doc _ docs hdoc hdocs =>
        rw [appendDirty_succ hdocs, agentDoc_of_documents hdoc, Json.writeElements_cons,
          List.length_cons, List.append_assoc, zero_add, Nat.add_comm]
    · exact appendDirty_zero h s

/-- **A payload is JSON as far as its text goes.** -/
theorem buildArangoPayload_eq {t : AgentTable} {docs : List Json}
    (h : List.Forall₂ Documents (dirtyAgents t) docs) :
    buildArangoPayload t = (Json.write jsonEscapeByte (payloadOf docs), docs.length) := by
  have hopen : str "\x7b\"query\":\"" = 0x7B :: (Json.quote jsonEscapeByte (str "query") ++ [0x3A, 0x22]) :=
    rfl
  have hmid : str "\",\"bindVars\":\x7b\"devices\":[" =
      0x22 :: 0x2C :: (Json.quote jsonEscapeByte (str "bindVars") ++ 0x3A :: 0x7B ::
        (Json.quote jsonEscapeByte (str "devices") ++ [0x3A, 0x5B])) := rfl
  have hclose : str "]\x7d\x7d" = [0x5D, 0x7D, 0x7D] := rfl
  have hquery : Json.quote jsonEscapeByte upsertQuery = 0x22 :: (upsertQuery ++ [0x22]) :=
    quote_of_clean (Json.of_plainASCII rfl).1
  rw [buildArangoPayload, appendDirty_zero h, hopen, hmid, hclose]
  simp only [payloadOf, Json.write_object, Json.writeMembers_cons_cons, Json.writeMembers_singleton,
    Json.write_string, Json.write_array, hquery, List.append_assoc, List.cons_append,
    List.nil_append]

end Gateway

end Xsiam
