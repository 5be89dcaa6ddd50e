import Xsiam.Gateway.Bound
import Xsiam.Gateway.Escape
import Xsiam.Gateway.Kept

/-!
# What is posted of the agents

`xsiam_agent_event.c` writes the body of a post by hand: the name of the event, the instance, the
tenant and the agent, each between quotes (`Xsiam.Gateway.postBody`). The agent ID is what a HELLO
said it is (`Xsiam.Gateway.posts_announced`), and nothing escapes it, though the plugin has an
escaper. So the body says what it is to say exactly when the agent ID needs no escape
(`Xsiam.Gateway.decode_postBody_iff`), and one that does need it overrides the tenant
(`Xsiam.Gateway.decode_postBody_override`).
-/

namespace Xsiam

namespace Gateway

open Go (str)

open Run

/-! ### The body of a post -/

/-- The name of an event, as `post_agent_event` is called with it. -/
def EventName.text : EventName → CString
  | .connect => str "connect"
  | .heartbeat => str "heartbeat"
  | .disconnect => str "disconnect"
  | .fbHeartbeat => str "fb_heartbeat"

/-- The tenant that is posted. -/
def Config.tenant (cfg : Config) : CString :=
  if cfg.tenantID = [] then str "tenant-default" else cfg.tenantID

/-- The body that `post_agent_event` sends, from an instance. -/
def postBody (cfg : Config) (fbInstanceID : CString) (p : Post) : List UInt8 :=
  str "\x7b\"event\":\"" ++ p.event.text ++
    str "\",\"fb_instance_id\":\"" ++ fbInstanceID ++
    str "\",\"tenant_id\":\"" ++ cfg.tenant ++
    (if p.agentID = [] then [] else str "\",\"agent_id\":\"" ++ p.agentID) ++
    str "\"\x7d"

/-- The members of a post before the agent. -/
def senderFields (cfg : Config) (fbInstanceID : CString) (event : EventName) :
    List (List UInt8 × Json) :=
  [(str "event", .string event.text), (str "fb_instance_id", .string fbInstanceID),
    (str "tenant_id", .string cfg.tenant)]

/-- What a post is to say: four fields, each a string. -/
def postFields (cfg : Config) (fbInstanceID : CString) (p : Post) : Json :=
  .object (senderFields cfg fbInstanceID p.event ++ [(str "agent_id", .string p.agentID)])

theorem plainText_text (event : EventName) : PlainText event.text := by
  cases event <;> exact Json.of_plainASCII rfl

theorem plainText_tenant {cfg : Config} (h : PlainText cfg.tenantID) : PlainText cfg.tenant := by
  rw [Config.tenant]
  split_ifs
  · exact Json.of_plainASCII rfl
  · exact h

theorem plainText_keys : PlainText (str "event") ∧ PlainText (str "fb_instance_id") ∧
    PlainText (str "tenant_id") ∧ PlainText (str "agent_id") :=
  ⟨Json.of_plainASCII rfl, Json.of_plainASCII rfl, Json.of_plainASCII rfl, Json.of_plainASCII rfl⟩

/-- **The agent ID is pasted** behind fields that need no escape. -/
theorem postBody_eq_pasted {cfg : Config} {fbInstanceID : CString} (hfb : Json.Clean fbInstanceID)
    (htenant : Json.Clean cfg.tenant) {p : Post} (hp : p.agentID ≠ []) :
    postBody cfg fbInstanceID p =
      Json.pasted jsonEscapeByte (senderFields cfg fbInstanceID p.event) (str "agent_id")
        p.agentID := by
  obtain ⟨hevent, hfbID, htenantID, hagentID⟩ := plainText_keys
  have hopen : str "\x7b\"event\":\"" = 0x7B :: 0x22 :: (str "event" ++ [0x22, 0x3A, 0x22]) := rfl
  have hfbKey : str "\",\"fb_instance_id\":\"" =
      0x22 :: 0x2C :: 0x22 :: (str "fb_instance_id" ++ [0x22, 0x3A, 0x22]) := rfl
  have htenantKey : str "\",\"tenant_id\":\"" =
      0x22 :: 0x2C :: 0x22 :: (str "tenant_id" ++ [0x22, 0x3A, 0x22]) := rfl
  have hagentKey : str "\",\"agent_id\":\"" =
      0x22 :: 0x2C :: 0x22 :: (str "agent_id" ++ [0x22, 0x3A, 0x22]) := rfl
  have hclose : str "\"\x7d" = [0x22, 0x7D] := rfl
  rw [postBody, if_neg hp, Json.pasted, senderFields, Json.writeMembers, Json.writeMembers,
    Json.writeMembers, Json.write, Json.write, Json.write, quote_of_clean hevent.1,
    quote_of_clean hfbID.1, quote_of_clean htenantID.1, quote_of_clean hagentID.1,
    quote_of_clean (plainText_text p.event).1, quote_of_clean hfb, quote_of_clean htenant, hopen, hfbKey, htenantKey, hagentKey, hclose]
  simp only [List.append_assoc, List.cons_append, List.nil_append]

/-! ### What is posted in a run -/

/-- A HELLO that is accepted announces an agent. -/
def Announced (agentID : CString) : Prop :=
  ∃ body hello, parseHello body = some hello ∧ hello.agentID = agentID ∧ agentID ≠ []

/-- Connections are bound to agents that were announced, and only of these is anything posted. -/
structure AnnouncedAll (s : State) : Prop where
  bound : ∀ c agentID, s.agentKey c = some agentID → Announced agentID
  posts : ∀ p ∈ s.posts, Announced p.agentID

theorem agentID_postAgentEvent {cfg : Config} {event : EventName} {agentID : CString} {p : Post}
    (h : p ∈ postAgentEvent cfg event agentID) : p.agentID = agentID := by
  rw [postAgentEvent] at h
  split_ifs at h
  · rw [List.mem_singleton.mp h]
  · exact absurd h List.not_mem_nil

section

variable {cfg : Config} {now : ℤ} {t : AgentTable} {p : Post}

theorem agentID_markSeen {hello : Hello} (h : p ∈ (markSeen cfg now t hello).2) :
    hello.agentID ≠ [] ∧ p.agentID = hello.agentID := by
  rw [markSeen] at h
  split_ifs at h with hid
  · exact absurd h List.not_mem_nil
  · exact ⟨hid, agentID_postAgentEvent h⟩

theorem agentID_markHeartbeat {agentID : CString} (h : p ∈ (markHeartbeat cfg now t agentID).2) :
    p.agentID = agentID := by
  rw [markHeartbeat] at h
  split at h
  · exact absurd h List.not_mem_nil
  · exact agentID_postAgentEvent h

theorem agentID_markDisconnected {agentID : CString}
    (h : p ∈ (markDisconnected cfg now t agentID).2) : p.agentID = agentID := by
  rw [markDisconnected] at h
  split at h
  · exact absurd h List.not_mem_nil
  · split_ifs at h
    · exact agentID_postAgentEvent h
    · exact absurd h List.not_mem_nil

end

theorem AnnouncedAll.of_agentKey {s s' : State} (h : AnnouncedAll s)
    (hkey : ∀ c a, s'.agentKey c = some a → s.agentKey c = some a ∨ Announced a)
    (hposts : ∀ p ∈ s'.posts, p ∈ s.posts ∨ Announced p.agentID) : AnnouncedAll s' where
  bound := fun c a ha => (hkey c a ha).elim (h.bound c a) id
  posts := fun p hp => (hposts p hp).elim (h.posts p) id

/-- Who is bound after a HELLO was bound before, or is named in it. -/
theorem agentKey_greet {cfg : Config} {s : State} {c c' : ℕ} {hello : Hello} {a : CString}
    (h : (s.greet cfg c hello).agentKey c' = some a) :
    s.agentKey c' = some a ∨ hello.agentID ≠ [] ∧ hello.agentID = a := by
  rw [State.greet, agentKey_setConn] at h
  split_ifs at h with hc
  · obtain ⟨conn, hget, ha⟩ := Option.bind_eq_some_iff.mp h
    rw [Conn.greeted] at ha
    split_ifs at ha with hid
    · left
      exact (agentKey_of_get hget).trans ha
    · exact .inr ⟨hid, Option.some.inj ha⟩
  · exact .inl h

theorem kept_announcedAll (cfg : Config) : Kept cfg AnnouncedAll where
  accept := fun {s} h =>
    h.of_agentKey (fun c a ha => Or.inl ((agentKey_accept s c).symm.trans ha)) fun p hp => Or.inl hp
  wait := fun seconds h => ⟨h.bound, h.posts⟩
  classify := by
    intro s c conn tag group hget h
    exact h.of_agentKey (fun c' a ha => Or.inl (((keeps_setConn hget rfl).agentKey c').symm.trans ha))
      fun p hp => Or.inl hp
  greet := by
    intro s body hello c hparse h
    refine h.of_agentKey (fun c' a ha => ?_) fun p hp => ?_
    · exact (agentKey_greet ha).imp id fun ⟨hid, heq⟩ => ⟨body, hello, hparse, heq, heq ▸ hid⟩
    · rcases List.mem_append.mp hp with hp | hp
      · exact Or.inl hp
      · -- what a HELLO posts is of the agent that it announces
        obtain ⟨hid, heq⟩ := agentID_markSeen hp
        exact Or.inr ⟨body, hello, hparse, heq.symm, heq ▸ hid⟩
  refresh := by
    intro s c h
    refine h.of_agentKey (fun c' a ha => Or.inl (((keeps_refresh cfg s c).agentKey c').symm.trans ha))
      fun p hp => ?_
    rw [State.refresh] at hp
    split at hp
    · exact Or.inl hp
    · next id hkey =>
      rcases List.mem_append.mp hp with hp | hp
      · exact Or.inl hp
      · exact Or.inr (agentID_markHeartbeat hp ▸ h.bound c id hkey)
  ack := fun c seq h => ⟨h.bound, h.posts⟩
  hand := fun records h => ⟨h.bound, h.posts⟩
  connDel := by
    intro s c h
    refine h.of_agentKey (fun c' a ha => Or.inl ?_) fun p hp => ?_
    · rw [agentKey_connDel] at ha
      split_ifs at ha
      exact ha
    · rw [connDel] at hp
      split at hp
      · exact Or.inl hp
      · next id hkey =>
        rcases List.mem_append.mp hp with hp | hp
        · exact Or.inl hp
        · exact Or.inr (agentID_markDisconnected hp ▸ h.bound c id hkey)

theorem announcedAll_init (now : ℤ) : AnnouncedAll (.init now) where
  bound := fun c a ha => absurd ha (by simp [State.agentKey, State.init, Collection.get,
    Collection.empty])
  posts := fun p hp => absurd hp List.not_mem_nil

/-- **Every post of a run is of an agent that a HELLO announced.** -/
theorem posts_announced {cfg : Config} {now : ℤ}
    {ok : History State Event → State → Event → Prop} {hist : History State Event} {s : State}
    (h : Reach (step cfg) ok (.init now) hist s) : ∀ p ∈ s.posts, Announced p.agentID :=
  ((kept_announcedAll cfg).reach (announcedAll_init now) h).posts

/-! ### What the server reads -/

/-- A body with an agent ID in it is decoded as it is meant, if the ID needs no escape. -/
theorem decode_pasted_post {cfg : Config} {fbInstanceID : CString} (hfb : PlainText fbInstanceID)
    (htenant : PlainText cfg.tenantID) {p : Post} (hid : p.agentID ≠ []) :
    Json.decode (postBody cfg fbInstanceID p) = some (postFields cfg fbInstanceID p) ↔
      PlainText p.agentID := by
  have hcfg := plainText_tenant htenant
  have hne : senderFields cfg fbInstanceID p.event ≠ [] := by simp [senderFields]
  have hnatural : ∀ t, .numeral t ∈ Json.leavesMembers (senderFields cfg fbInstanceID p.event) →
      Json.Numeral t := fun t ht =>
    absurd ht (by simp [senderFields, Json.leavesMembers, Json.leaves])
  have hleaves : Json.Utf8Texts (Json.leavesMembers (senderFields cfg fbInstanceID p.event)) := by
    obtain ⟨hevent, hfbID, htenantID, -⟩ := plainText_keys
    intro s hs
    simp only [senderFields, Json.leavesMembers, Json.leaves, List.mem_append, List.mem_cons,
      Json.Leaf.text.injEq, List.not_mem_nil, or_false] at hs
    rcases hs with (rfl | rfl) | (rfl | rfl) | rfl | rfl
    · exact hevent.2
    · exact (plainText_text p.event).2
    · exact hfbID.2
    · exact hfb.2
    · exact htenantID.2
    · exact hcfg.2
  rw [postBody_eq_pasted hfb.1 hcfg.1 hid, postFields,
    Json.decode_pasted escapes_jsonEscapeByte (fun b => jsonEscapeByte_of_plain) hne hnatural,
    and_iff_right hleaves, and_iff_right plainText_keys.2.2.2.2, and_comm]
  rfl

/-- **The body of a post says what it is to say exactly if the agent ID needs no escape.** -/
theorem decode_postBody_iff {cfg : Config} {fbInstanceID : CString} (hfb : PlainText fbInstanceID)
    (htenant : PlainText cfg.tenantID) {body : List UInt8} {hello : Hello} :
    parseHello body = some hello → hello.agentID ≠ [] → ∀ event : EventName,
      (Json.decode (postBody cfg fbInstanceID ⟨event, hello.agentID⟩) =
          some (postFields cfg fbInstanceID ⟨event, hello.agentID⟩) ↔ PlainText hello.agentID) :=
  fun _ hid event => @decode_pasted_post _ _ hfb htenant ⟨event, hello.agentID⟩ hid

set_option maxRecDepth 2000 in
theorem decode_postBody_iff_a :
    Json.decode (postBody {} (str "fb") ⟨.connect, str "a"⟩) =
        some (postFields {} (str "fb") ⟨.connect, str "a"⟩) ↔ PlainText (str "a") :=
  @decode_postBody_iff {} (str "fb") (Json.of_plainASCII rfl) (Json.of_plainASCII rfl) [0, 1, 0, 0, 0, 1, 0x61, 0, 0, 0, 0]
    ⟨str "a", [], [], [], none⟩ rfl (by decide) .connect

/-- The agent ID of a HELLO that has fields of its own in it. -/
def overridingID : CString := str "a\",\"tenant_id\":\"t2"

/-- The HELLO of an agent, with no name and no version. -/
def helloBody (agentID : CString) : List UInt8 :=
  [0, 1, 0, 0, 0, UInt8.ofNat agentID.length] ++ agentID ++ [0, 0, 0, 0]

set_option maxRecDepth 10000 in
theorem decode_postBody_override :
    (parseHello (helloBody overridingID)).map (·.agentID) = some overridingID ∧
    Json.decode (postBody {} (str "fb") ⟨.connect, overridingID⟩) =
      some (.object [(str "event", .string (str "connect")),
        (str "fb_instance_id", .string (str "fb")), (str "tenant_id", .string (str "tenant-default")),
        (str "agent_id", .string (str "a")), (str "tenant_id", .string (str "t2"))]) := by
  constructor <;> rfl

/-- An agent ID overrides the tenant. -/
theorem not_decode_postBody :
    ¬∀ (cfg : Config) (fbInstanceID : CString), PlainText fbInstanceID → PlainText cfg.tenantID →
      ∀ (body : List UInt8) (hello : Hello), parseHello body = some hello → hello.agentID ≠ [] →
        ∀ event : EventName, Json.decode (postBody cfg fbInstanceID ⟨event, hello.agentID⟩) =
          some (postFields cfg fbInstanceID ⟨event, hello.agentID⟩) := by
  intro h
  obtain ⟨hparse, hdecode⟩ := decode_postBody_override
  obtain ⟨hello, hparse, hid⟩ := Option.map_eq_some_iff.mp hparse
  have hne : hello.agentID ≠ [] := by
    rw [hid]
    decide
  have hfields := h {} (str "fb") (Json.of_plainASCII rfl) (Json.of_plainASCII rfl) _ hello hparse
    hne .connect
  rw [hid, hdecode] at hfields
  have hlen := congrArg List.length (Json.object.inj (Option.some.inj hfields))
  exact absurd hlen (by simp [senderFields])

end Gateway

end Xsiam
