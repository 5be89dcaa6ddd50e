import Xsiam.Gateway.Bound
import Xsiam.Gateway.Payload

/-!
# Payloads that can be read

The escaper of the gateway passes on every byte from `0x80` on. So a payload is JSON, and holds
the documents of its agents, exactly when all their strings are UTF-8
(`Xsiam.Gateway.payloadRight_iff_utf8`). One string that is not makes the payload of all agents no
JSON at all (`Xsiam.Gateway.decode_payload_eq_none`).
-/

namespace Xsiam

namespace Gateway

open Go (str)

open Run

/-! ### When it is UTF-8 -/

theorem ascii_decimal (n : ℕ) : ∀ b ∈ decimal n, b.toNat < 0x80 := by
  intro b hb
  obtain ⟨c, hc, rfl⟩ := List.mem_map.mp hb
  have hdigit := Nat.isDigit_of_mem_toDigits (by decide) (by decide) hc
  simp only [Char.isDigit, ge_iff_le, Bool.and_eq_true, decide_eq_true_eq] at hdigit
  have hle : c.toNat ≤ 57 := hdigit.2
  rw [UInt8.toNat_ofNat']
  omega

theorem ascii_twoDigits (n : ℕ) : ∀ b ∈ twoDigits n, b.toNat < 0x80 := by
  intro b hb
  rcases List.mem_append.mp hb with hb | hb
  · split_ifs at hb
    · rw [List.mem_singleton.mp hb]
      decide
    · exact absurd hb List.not_mem_nil
  · exact ascii_decimal n b hb

theorem ascii_formatYear (year : ℤ) : ∀ b ∈ formatYear year, b.toNat < 0x80 := by
  rw [formatYear]
  split_ifs
  · exact List.forall_mem_cons.mpr ⟨by decide, ascii_decimal _⟩
  · exact ascii_decimal _

/-- A time is ASCII. -/
theorem utf8_formatTime (time : ℤ) : Json.Utf8 (formatTime time) := by
  have hmark : ∀ {c : UInt8}, c.toNat < 0x80 → ∀ b ∈ [c], b.toNat < 0x80 :=
    fun hc => List.forall_mem_singleton.mpr hc
  refine Json.utf8_of_ascii ?_
  simp only [formatTime, List.forall_mem_append]
  exact ⟨⟨⟨⟨⟨⟨⟨⟨⟨⟨⟨ascii_formatYear _, hmark (by decide)⟩, ascii_twoDigits _⟩, hmark (by decide)⟩,
    ascii_twoDigits _⟩, hmark (by decide)⟩, ascii_twoDigits _⟩, hmark (by decide)⟩,
    ascii_twoDigits _⟩, hmark (by decide)⟩, ascii_twoDigits _⟩, hmark (by decide)⟩

theorem natural_macs (macs : List CString) : Json.Natural (.array (macs.map .string)) := by
  refine Json.natural_array fun v hv => ?_
  obtain ⟨mac, -, rfl⟩ := List.mem_map.mp hv
  exact Json.natural_string mac

theorem natural_agentFields (st : Agent) (macs : List CString) :
    Json.Natural (.object (agentFields st macs)) := by
  refine Json.natural_object ?_
  have hone : Json.Natural (.number (str "1")) := by
    intro t ht
    obtain rfl := Json.Leaf.numeral.inj (List.mem_singleton.mp ht)
    have hdigit : str "1" = [0x31] := rfl
    rw [hdigit]
    exact ⟨by simp, by simp [Json.isDigit], by simp⟩
  have hempty : Json.Natural (.array []) := Json.natural_array (by simp)
  have hbool : ∀ b, Json.Natural (.bool b) := fun b t ht => absurd ht List.not_mem_nil
  simp only [agentFields, List.forall_mem_cons, Json.natural_string, hone, natural_macs, hempty, hbool,
    true_and]
  exact fun _ h => absurd h List.not_mem_nil

theorem utf8_agentFields {st : Agent} (h : WellMade st) {macs : List CString}
    (hmacs : st.macAddressesJSON = macAddressesJSON macs) :
    Json.Utf8Texts (Json.leaves (.object (agentFields st macs))) ↔ Utf8Agent st := by
  have hlit : ∀ s : CString, Json.plainASCII s = true → (Json.Utf8 s ↔ True) :=
    fun s hs => iff_true_intro (Json.of_plainASCII hs).2
  have hdevice : str "device-" = [0x64, 0x65, 0x76, 0x69, 0x63, 0x65, 0x2D] := rfl
  have hkey : Json.Utf8 st.deviceKey ↔ Json.Utf8 st.agentID := by
    rw [Agent.deviceKey, hdevice]
    exact Json.utf8_ascii_append (by simp) _
  have hstatus : Json.Utf8 st.agentStatus.text := by
    cases st.agentStatus <;> exact (Json.of_plainASCII rfl).2
  have hbool : Json.Utf8Texts (Json.leaves (.bool st.isConnected)) := fun s hs =>
    absurd hs List.not_mem_nil
  have hnumber : Json.Utf8Texts (Json.leaves (.number (str "1"))) := fun s hs =>
    absurd (List.mem_singleton.mp hs) (by simp)
  have harray : Json.Utf8Texts (Json.leaves (.array (macs.map .string))) ↔
      Json.Utf8 st.macAddressesJSON := by
    have hutf8 := Json.utf8_write escapes_jsonEscapeByte (.array (macs.map .string))
      (natural_macs macs) []
    rw [List.append_nil, and_iff_left Json.utf8_nil, ← macAddressesJSON_eq, ← hmacs] at hutf8
    exact hutf8.symm
  have hempty : Json.Utf8Texts (Json.leaves (.array [])) := Json.utf8Texts_array.mpr (by simp)
  rw [Json.utf8Texts_object]
  simp (disch := decide) only [agentFields, List.forall_mem_cons, Json.utf8Texts_string, hlit, hkey, hstatus,
    hbool, hnumber, harray, hempty, utf8_formatTime, h.hostType, h.gatewayID, h.ip, true_and, and_true]
  constructor
  · rintro ⟨hid, -, htenant, -, hhost, hlist, hversion, -⟩
    exact ⟨hid, htenant, hhost, hversion, hlist⟩
  · rintro ⟨hid, htenant, hhost, hversion, hlist⟩
    exact ⟨hid, hid, htenant, hid, hhost, hlist, hversion, fun _ hm => absurd hm List.not_mem_nil⟩

/-! ### The payloads of a run -/

theorem forall_documents {P : Agent → Prop} {Q : Json → Prop} : ∀ {sts : List Agent} {docs : List Json},
    List.Forall₂ Documents sts docs → (∀ st ∈ sts, ∀ doc, Documents st doc → (Q doc ↔ P st)) →
      ((∀ doc ∈ docs, Q doc) ↔ ∀ st ∈ sts, P st)
  | _, _, .nil, _ => by simp
  | _, _, .cons hdoc hdocs, h => by
    rw [List.forall_mem_cons, List.forall_mem_cons, h _ List.mem_cons_self _ hdoc,
      forall_documents hdocs fun st hst => h st (List.mem_cons_of_mem _ hst)]

section

variable {cfg : Config} {now : ℤ} {hist : History State PluginEvent} {s : State}
  {ok : History State PluginEvent → State → PluginEvent → Prop}

/-- The text of a payload, and when it is UTF-8. -/
theorem payload_of_reach (h : Reach (pluginStep cfg) ok (.init now) hist s) :
    ∃ docs, List.Forall₂ Documents (dirtyAgents s.agents) docs ∧
      buildArangoPayload s.agents = (Json.write jsonEscapeByte (payloadOf docs), docs.length) ∧
      Json.Natural (payloadOf docs) ∧
      (Json.Utf8Texts (Json.leaves (payloadOf docs)) ↔
        ∀ st ∈ dirtyAgents s.agents, Utf8Agent st) := by
  have hmade := wellMade_of_reach h
  obtain ⟨docs, hdocs⟩ := exists_docs hmade
  refine ⟨docs, hdocs, buildArangoPayload_eq hdocs, ?_, ?_⟩
  · have hdoc : ∀ doc ∈ docs, Json.Natural doc := by
      refine (@forall_documents (fun _ => True) Json.Natural _ _ hdocs fun st _ doc hdoc => ?_).mpr
        fun _ _ => trivial
      obtain ⟨macs, -, rfl⟩ := hdoc
      exact iff_true_intro (natural_agentFields st macs)
    have hbind : Json.Natural (.object [(str "devices", .array docs)]) :=
      Json.natural_object (List.forall_mem_singleton.mpr (Json.natural_array hdoc))
    exact Json.natural_object (List.forall_mem_cons.mpr
      ⟨Json.natural_string _, List.forall_mem_singleton.mpr hbind⟩)
  · have hlit : ∀ s : CString, Json.plainASCII s = true → (Json.Utf8 s ↔ True) :=
      fun s hs => iff_true_intro (Json.of_plainASCII hs).2
    rw [payloadOf, Json.utf8Texts_object]
    simp (disch := decide) only [List.forall_mem_cons, List.not_mem_nil, false_imp_iff,
      implies_true, Json.utf8Texts_string, Json.utf8Texts_object, Json.utf8Texts_array, hlit,
      true_and, and_true]
    refine forall_documents hdocs fun st hst doc hdoc => ?_
    obtain ⟨macs, hmacs, rfl⟩ := hdoc
    exact utf8_agentFields (hmade st (List.mem_of_mem_filter hst)) hmacs

/-- **A flush sends JSON with the documents of its agents exactly if all their strings are
UTF-8.** -/
theorem payloadRight_iff_utf8 (h : Reach (pluginStep cfg) Any (.init now) hist s) :
    PayloadRight s.agents ↔ ∀ st ∈ dirtyAgents s.agents, Utf8Agent st := by
  obtain ⟨docs, hdocs, htext, hnatural, hutf8⟩ := payload_of_reach h
  rw [PayloadRight, htext, ← hutf8]
  constructor
  · rintro ⟨docs', hdecode, -, -⟩
    by_contra hnot
    rw [Json.decode_write_eq_none escapes_jsonEscapeByte hnatural hnot] at hdecode
    exact absurd hdecode (by simp)
  · intro hall
    exact ⟨docs, (Json.decode_write escapes_jsonEscapeByte hnatural).mpr hall, hdocs, rfl⟩

/-- One agent with a string that is not UTF-8 makes the payload of all of them no JSON. -/
theorem decode_payload_eq_none (h : Reach (pluginStep cfg) ok (.init now) hist s) {st : Agent}
    (hst : st ∈ dirtyAgents s.agents) (hnot : ¬Utf8Agent st) :
    Json.decode (buildArangoPayload s.agents).1 = none := by
  obtain ⟨docs, -, htext, hnatural, hutf8⟩ := payload_of_reach h
  rw [htext]
  exact Json.decode_write_eq_none escapes_jsonEscapeByte hnatural fun hall =>
    hnot (hutf8.mp hall st hst)

end

/-! ### Two agents -/

theorem payloadRight_of_hello :
    ∃ hist s, replay (pluginStep {}) [] (.init 0)
        [.gateway .accept, .gateway (.input 0 (helloOf 0x61) {})] = some (hist, s) ∧
      (PayloadRight s.agents ↔ ∀ st ∈ dirtyAgents s.agents, Utf8Agent st) := by
  obtain ⟨hist, s, hrun⟩ : ∃ hist s, replay (pluginStep {}) [] (.init 0)
      [.gateway .accept, .gateway (.input 0 (helloOf 0x61) {})] = some (hist, s) :=
    ⟨_, _, rfl⟩
  exact ⟨hist, s, hrun, payloadRight_iff_utf8 (Reach.start.replay hrun)⟩

/-- Two agents announce themselves, the second one with an ID that is not UTF-8. -/
def poisoned : List PluginEvent :=
  [.gateway .accept, .gateway (.input 0 (helloOf 0x61) {}), .gateway .accept,
    .gateway (.input 1 (helloOf 0xFF) {})]

theorem not_payloadRight :
    ¬∀ (cfg : Config) (now : ℤ) (hist : History State PluginEvent) (s : State),
      Reach (pluginStep cfg) Any (.init now) hist s → PayloadRight s.agents := by
  intro h
  obtain ⟨hist, s, hrun, hids⟩ : ∃ hist s,
      replay (pluginStep {}) [] (.init 0) poisoned = some (hist, s) ∧
        (dirtyAgents s.agents).map (·.agentID) = [[0x61], [0xFF]] :=
    ⟨_, _, rfl, rfl⟩
  have hreach : Reach (pluginStep {}) Any (.init 0) hist s := Reach.start.replay hrun
  obtain ⟨st, hst, hid⟩ : ∃ st ∈ dirtyAgents s.agents, st.agentID = [0xFF] :=
    List.mem_map.mp (hids ▸ List.mem_cons_of_mem _ (List.mem_singleton_self _))
  have hnot : ¬Utf8Agent st := fun hutf8 =>
    absurd (hid ▸ hutf8.agentID) (by decide : ¬Json.Utf8 [0xFF])
  obtain ⟨docs, hdocs, -⟩ := h {} 0 hist s hreach
  exact absurd ((decode_payload_eq_none hreach hst hnot).symm.trans hdocs) (by simp)

end Gateway

end Xsiam
