import Xsiam.Agent.Wzcp
import Xsiam.Gateway.Conn

/-!
# An event, from an agent to the gateway

An agent builds a batch of one event in a buffer (`Xsiam.Agent.buildEventBatch`), and the gateway
hands on a record for every event of a batch (`Xsiam.Gateway.processEventBatch`). The two lay an
event out alike, so that a batch that is built is read as what it was built of
(`Xsiam.Agent.parseEventBatch_of_build`).

What is in front of a payload takes 22 bytes, and the builder asks for 21. So a batch for which
one byte is missing is built nevertheless, and its last byte is behind the end of the buffer; and
that is the only way it goes wrong (`Xsiam.Agent.event_delivered_iff`).
-/

namespace Xsiam

namespace Agent

open Codec
open Gateway (Answers Conn EventRecord Frame beAt parseEventBatch readEvents processEventBatch
  eventLogRecord)

/-! ### Definitions -/

/-- What is in front of the payload in a batch of one event: how many events there are, and the
event's kind, its time, its ID and the length of its payload. -/
def eventHead (now eventID : UInt64) (kind : UInt8) (len : ℕ) : List UInt8 :=
  beBytes 2 1 ++ [kind, 0] ++ be64 now ++ be64 eventID ++ beBytes 2 len

/-- A batch that was built for an event is all in its buffer, and the gateway, which can encode
a record, hands on one record for it, with the kind, the ID and the payload of the event. -/
structure Delivered (outCap : ℕ) (eventID : UInt64) (kind : UInt8) (payload out : List UInt8) :
    Prop where
  within : out.length ≤ outCap
  handed : ∀ (s : Gateway.State) (c : ℕ) (conn : Conn) (f : Frame) (ans : Answers),
    f.body = out → ans.encode 0 = true →
      ∃ r fields, (processEventBatch s c conn f ans).1.handed = s.handed ++ [[r]] ∧
        r.event = some fields ∧ fields.kind = kind ∧ fields.eventID = eventID.toNat ∧
        r.log = payload

/-! ### What is built -/

section Build

variable {outCap : ℕ} {now eventID : UInt64} {kind : UInt8} {payload out : List UInt8}

theorem length_eventHead (len : ℕ) : (eventHead now eventID kind len).length = 22 := by
  simp [eventHead]

theorem buildEventBatch_eq_some :
    buildEventBatch outCap now eventID kind payload = some out ↔
      (payload.length ≤ 0xFFFF ∧ 21 + payload.length ≤ outCap) ∧
        out = eventHead now eventID kind payload.length ++ payload := by
  rw [buildEventBatch]
  split_ifs with hrefused
  · refine iff_of_false (by simp) fun h => ?_
    omega
  · rw [Option.some.injEq, eq_comm]
    exact (and_iff_right (by omega)).symm

/-- One byte more is written than was asked for. -/
theorem length_of_build (h : buildEventBatch outCap now eventID kind payload = some out) :
    out.length = 22 + payload.length := by
  rw [(buildEventBatch_eq_some.mp h).2, List.length_append, length_eventHead]

/-! ### What is read -/

/-- The fields of an event are where the gateway looks for them. -/
theorem beAt_eq_beNat (pre rest field : List UInt8) {body : List UInt8} {off k : ℕ}
    (hbody : body = pre ++ (field ++ rest)) (hoff : pre.length = off) (hk : field.length = k) :
    beAt body off k = beNat field := by
  rw [beAt, take_drop_of_append pre rest hbody hoff hk]

/-- **A batch is read as what it was built of.** -/
theorem parseEventBatch_of_build (h : buildEventBatch outCap now eventID kind payload = some out) :
    parseEventBatch out = some [⟨kind, eventID.toNat, payload⟩] := by
  have hlength := length_of_build h
  obtain ⟨⟨hmax, -⟩, rfl⟩ := buildEventBatch_eq_some.mp h
  set out := eventHead now eventID kind payload.length ++ payload with hout
  have hcount : beAt out 0 2 = 1 := beAt_eq_beNat [] _ (beBytes 2 1)
    (by rw [hout, eventHead]; simp only [List.append_assoc, List.nil_append]; rfl) rfl rfl
  have hkind : out.getD 2 0 = kind := rfl
  have hid : beAt out 12 8 = eventID.toNat := by
    rw [beAt_eq_beNat (beBytes 2 1 ++ [kind, 0] ++ be64 now) (beBytes 2 payload.length ++ payload)
      (be64 eventID) (by rw [hout, eventHead]; simp only [List.append_assoc]) (by simp)
      (length_be64 _)]
    exact beNat_beBytes 8 _ eventID.toNat_lt
  have hlen : beAt out 20 2 = payload.length := by
    rw [beAt_eq_beNat (beBytes 2 1 ++ [kind, 0] ++ be64 now ++ be64 eventID) payload
      (beBytes 2 payload.length) (by rw [hout, eventHead]; simp only [List.append_assoc]) (by simp)
      (length_beBytes 2 _)]
    exact beNat_beBytes 2 _ (by omega)
  have hpayload : (out.drop 22).take payload.length = payload :=
    take_drop_of_append (eventHead now eventID kind payload.length) [] (by simp [hout])
      (length_eventHead _) rfl
  rw [parseEventBatch, if_neg (by omega), hcount, readEvents, if_neg (by omega)]
  simp only [hkind, hid, hlen, hpayload]
  rw [if_neg (by omega), readEvents, Option.map_some]

/-- The gateway hands on the event of a batch that was built. -/
theorem handed_of_build (h : buildEventBatch outCap now eventID kind payload = some out)
    (s : Gateway.State) (c : ℕ) (conn : Conn) {f : Frame} (hbody : f.body = out) {ans : Answers}
    (hencode : ans.encode 0 = true) :
    (processEventBatch s c conn f ans).1.handed =
      s.handed ++ [[eventLogRecord c conn f ⟨kind, eventID.toNat, payload⟩]] := by
  have hencodes : ans.encodes 1 = true := by simp [Answers.encodes, hencode]
  rw [processEventBatch, hbody, parseEventBatch_of_build h]
  dsimp only [List.length_singleton]
  rw [if_pos hencodes, Gateway.State.sendAck, Gateway.State.hand, List.map_singleton,
    if_neg (List.cons_ne_nil _ _)]
  split_ifs <;> rfl

/-- An event is delivered exactly if it is all in its buffer. -/
theorem delivered_iff (h : buildEventBatch outCap now eventID kind payload = some out) :
    Delivered outCap eventID kind payload out ↔ 22 + payload.length ≤ outCap := by
  rw [← length_of_build h]
  refine ⟨Delivered.within, fun hwithin => ⟨hwithin, ?_⟩⟩
  intro s c conn f ans hbody hencode
  exact ⟨_, _, handed_of_build h s c conn hbody hencode, rfl, rfl, rfl, rfl⟩

end Build

/-! ### Events that are delivered -/

/-- **An event that is built is delivered, unless its buffer is one byte too small for it.** -/
theorem event_delivered_iff (outCap : ℕ) (now eventID : UInt64) (kind : UInt8)
    (payload : List UInt8) :
    (∀ out, buildEventBatch outCap now eventID kind payload = some out →
        Delivered outCap eventID kind payload out) ↔
      0xFFFF < payload.length ∨ outCap ≠ 21 + payload.length := by
  constructor
  · intro hall
    by_contra hcond
    rw [not_or, Nat.not_lt, not_not] at hcond
    have hbuild := (@buildEventBatch_eq_some outCap now eventID kind payload _).mpr
      ⟨⟨hcond.1, hcond.2.ge⟩, rfl⟩
    have hfits := (delivered_iff hbuild).mp (hall _ hbuild)
    omega
  · intro hcond out hbuild
    obtain ⟨⟨hmax, hcap⟩, -⟩ := buildEventBatch_eq_some.mp hbuild
    refine (delivered_iff hbuild).mpr ?_
    omega

/-- An event without a payload, in a buffer of 21 bytes: 22 are written. -/
theorem event_not_delivered :
    ¬∀ (outCap : ℕ) (now eventID : UInt64) (kind : UInt8) (payload out : List UInt8),
      buildEventBatch outCap now eventID kind payload = some out →
        Delivered outCap eventID kind payload out := by
  intro h
  have hwithin := (h 21 0 1 wzcpEventLog [] (eventHead 0 1 wzcpEventLog 0) (by decide)).within
  rw [length_eventHead] at hwithin
  omega

end Agent

end Xsiam
