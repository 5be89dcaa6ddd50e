import Xsiam.Agent.Wzcp
import Xsiam.Gateway.Messages

/-!
# Frames between agents and the gateway

Agents and the gateway lay out and read their frames alike (`Xsiam.Agent.gatewayUnpack_eq`), but
their limits are not on the same thing. An agent takes every body of a mebibyte, and so does the
header's reader on either side; what the gateway looks at first is the length of the frame, which is
longer by the header. The gateway sets no limit to what it sends. So a frame arrives
(`Xsiam.Agent.arrives_iff`) unless its body is too long for the one limit and not for the other.
-/

namespace Xsiam

namespace Agent

open Codec
open Gateway (Frame beAt looksLikeWzcp frameAt processFrame processFrames)

/-! ### Definitions -/

/-- `wzcp_header` as the gateway's `unpack_header` fills it, with the time, which nothing reads
again. -/
structure TimedHeader extends Gateway.WzcpHeader where
  timestampMs : UInt64

/-- The gateway's `unpack_header`, with the time. -/
def gatewayUnpack (bs : List UInt8) : Option TimedHeader :=
  (Gateway.unpackHeader bs).map fun h => { h with timestampMs := UInt64.ofNat (beAt bs 20 8) }

/-- The gateway's `send_frame`: the bytes it writes. -/
def gatewaySendFrame (msgType : UInt8) (agentID : UInt32) (seq now : UInt64) (body : List UInt8) :
    List UInt8 :=
  be32 (UInt32.ofNat Gateway.wzcpHeaderSize + UInt32.ofNat body.length) ++
    (be32 (UInt32.ofNat Gateway.wzcpMagic) ++
      [Gateway.wzcpVersion, UInt8.ofNat Gateway.wzcpHeaderSize, 0, msgType] ++ be32 agentID ++
      be64 seq ++ be64 now ++ be32 (UInt32.ofNat body.length)) ++ body

/-- A frame that is sent. -/
structure Sent where
  msgType : UInt8
  agentID : UInt32
  seq : UInt64
  timestampMs : UInt64
  body : List UInt8

namespace Sent

variable (f : Sent)

/-- The frame as the gateway's handlers get it. -/
def frame : Frame := ⟨f.msgType, f.agentID, f.seq, f.body⟩

/-- The header of the frame as the gateway reads it. -/
def timedHeader : TimedHeader where
  msgType := f.msgType
  agentID := f.agentID
  seq := f.seq
  bodyLen := f.body.length
  timestampMs := f.timestampMs

/-- The header of the frame as an agent reads it. -/
def header : WzcpHeader := frameHeader f.msgType f.agentID f.seq f.timestampMs f.body

/-- The gateway handles some bytes as this frame alone: they look like a frame, their header is this
one, and `process_frames` hands the frame on and has then consumed all bytes. -/
structure HandledAlone (w : List UInt8) : Prop where
  looks : looksLikeWzcp w = true
  header : gatewayUnpack (w.drop 4) = some f.timedHeader
  handled : ∀ (cfg : Gateway.Config) (c : ℕ) (ans : ℕ → Gateway.Answers) (s : Gateway.State)
    (conn : Gateway.Conn), s.conns.get c = some conn →
      processFrames cfg c ans s w =
        let r := processFrame cfg
          (s.setConn c fun conn => conn.classify (Go.str "agent_wzcp") (Go.str "agent")) c
          (conn.classify (Go.str "agent_wzcp") (Go.str "agent")) f.frame (ans (w.length - 1))
        (r.1, if r.2 then some w.length else none)

end Sent

/-- A frame on its way, with the buffer that is there for its body. -/
inductive Transfer where
  | toGateway (f : Sent)
  | toAgent (f : Sent) (bodyCap : UInt32)

/-- A frame arrives as it was sent: one of an agent, if the agent accepts its body, and one of the
gateway, if the body fits into the buffer. -/
def Transfer.Arrives : Transfer → Prop
  | .toGateway f => ∀ pieces,
      sendFrame f.msgType f.agentID f.seq f.timestampMs f.body = some pieces →
        f.HandledAlone pieces.flatten
  | .toAgent f bodyCap => f.body.length ≤ bodyCap.toNat → ∀ rest,
      recvFrame (gatewaySendFrame f.msgType f.agentID f.seq f.timestampMs f.body ++ rest) bodyCap =
        some (f.header, f.body, rest)

/-- A body within the limits: an agent refuses it, or it fits the gateway's limit together with its
header; and what the gateway sends is within the limit of an agent's header, and comes with a buffer
such that a frame that fills it has a length in 32 bits. -/
def Transfer.InLimits : Transfer → Prop
  | .toGateway f => f.body.length + 32 ≤ 1024 * 1024 ∨ 1024 * 1024 < f.body.length
  | .toAgent f bodyCap => f.body.length ≤ bodyCap.toNat →
      f.body.length ≤ 1024 * 1024 ∧ bodyCap.toNat + 32 < 2 ^ 32

/-! ### The two readers of headers -/

/-- What the gateway keeps of a header. -/
def WzcpHeader.timed (h : WzcpHeader) : TimedHeader where
  msgType := h.msgType
  agentID := h.agentID
  seq := h.seq
  bodyLen := h.bodyLen.toNat
  timestampMs := h.timestampMs

/-- **Both read a header alike.** -/
theorem gatewayUnpack_eq {bs : List UInt8} (h : 32 ≤ bs.length) :
    gatewayUnpack bs = (unpackHeader bs).map WzcpHeader.timed := by
  have hfield : ∀ off, off + 4 ≤ 32 → ((bs.drop off).take 4).length = 4 := by
    intro off hoff
    rw [List.length_take, List.length_drop]
    omega
  have hmagic : (word32 (bs.take 4) = wzcpMagic) ↔ beAt bs 0 4 = Gateway.wzcpMagic := by
    have hfirst : (bs.take 4).length = 4 := hfield 0 (by omega)
    rw [← UInt32.toNat_inj, toNat_word32 hfirst]
    rfl
  have hlen : (word32 ((bs.drop 28).take 4)).toNat = beAt bs 28 4 :=
    toNat_word32 (hfield 28 (by omega))
  have hsize : (bs.getD 5 0 = 32) ↔ (bs.getD 5 0).toNat = Gateway.wzcpHeaderSize := by
    rw [← UInt8.toNat_inj]
    rfl
  have hvalid : (headerOf bs).Valid ↔ ¬(beAt bs 0 4 ≠ Gateway.wzcpMagic ∨
      bs.getD 4 0 ≠ Gateway.wzcpVersion ∨ (bs.getD 5 0).toNat ≠ Gateway.wzcpHeaderSize ∨
      beAt bs 28 4 > Gateway.wzcpMaxFrame) := by
    rw [WzcpHeader.Valid, headerOf, hmagic, hsize, UInt32.le_iff_toNat_le, hlen]
    simp only [ne_eq, not_or, not_not, not_lt, gt_iff_lt]
    rfl
  rw [gatewayUnpack, Gateway.unpackHeader, unpackHeader]
  by_cases hall : (headerOf bs).Valid
  · rw [if_pos hall, if_neg (hvalid.mp hall)]
    simp only [Option.map_some, WzcpHeader.timed, headerOf, hlen]
    rfl
  · rw [if_neg hall, if_pos (not_not.mp fun hn => hall (hvalid.mpr hn))]
    rfl

/-! ### What an agent sends -/

section ToGateway

variable {f : Sent} {tail : List UInt8}

/-- The bytes of a frame. -/
def Sent.bytes (f : Sent) : List UInt8 := frameBytes f.msgType f.agentID f.seq f.timestampMs f.body

theorem Sent.length_bytes (f : Sent) : f.bytes.length = 36 + f.body.length := by
  simp only [Sent.bytes, frameBytes, List.length_append, length_be32, length_packHeader]
  omega

theorem toNat_bodyLen (h : f.body.length ≤ 1024 * 1024) :
    f.header.bodyLen.toNat = f.body.length :=
  UInt32.toNat_ofNat_of_lt' (by rw [UInt32.size]; omega)

/-- The length in front of a frame. -/
theorem beAt_bytes (h : f.body.length ≤ 1024 * 1024) :
    beAt (f.bytes ++ tail) 0 4 = 32 + f.body.length := by
  have hlen : (UInt32.ofNat f.body.length).toNat = f.body.length := toNat_bodyLen h
  have hfirst : (f.bytes ++ tail).take 4 = be32 (wzcpHeaderSize + UInt32.ofNat f.body.length) := by
    rw [Sent.bytes, frameBytes, List.append_assoc]
    exact List.take_left' (length_be32 _)
  have hsize : wzcpHeaderSize.toNat = 32 := rfl
  rw [beAt, List.drop_zero, hfirst, be32, beNat_beBytes 4 _ (UInt32.toNat_lt _), UInt32.toNat_add, hlen,
    hsize, Nat.mod_eq_of_lt (by omega)]

theorem drop_bytes (f : Sent) (tail : List UInt8) :
    (f.bytes ++ tail).drop 4 = packHeader f.header ++ (f.body ++ tail) := by
  rw [Sent.bytes, frameBytes, List.append_assoc, List.append_assoc]
  exact List.drop_left' (length_be32 _)

theorem valid_header (h : f.body.length ≤ 1024 * 1024) : f.header.Valid := by
  refine ⟨rfl, rfl, rfl, ?_⟩
  rw [UInt32.le_iff_toNat_le, toNat_bodyLen h]
  exact h

/-- The gateway reads the header of a frame, whatever is behind the frame. -/
theorem gatewayUnpack_bytes (h : f.body.length ≤ 1024 * 1024) (tail : List UInt8) :
    gatewayUnpack ((f.bytes ++ tail).drop 4) = some f.timedHeader := by
  have hheader := headerOf_packHeader f.header (f.body ++ tail)
  rw [drop_bytes, gatewayUnpack_eq (by simp), unpackHeader, hheader, if_pos (valid_header h),
    Option.map_some, WzcpHeader.timed, toNat_bodyLen h]
  rfl

/-- **The frame at the start of some bytes is the one that was written there.** -/
theorem frameAt_bytes (h : f.body.length ≤ 1024 * 1024) (tail : List UInt8) :
    frameAt (f.bytes ++ tail) = some f.frame := by
  obtain ⟨hd, hunpack, htimed⟩ := Option.map_eq_some_iff.mp (gatewayUnpack_bytes h tail)
  have hd' : hd = f.timedHeader.toWzcpHeader := congrArg TimedHeader.toWzcpHeader htimed
  have hbody : ((f.bytes ++ tail).drop (4 + Gateway.wzcpHeaderSize)).take f.body.length = f.body := by
    rw [← List.drop_drop, drop_bytes, Gateway.wzcpHeaderSize, List.drop_left' (length_packHeader _)]
    exact List.take_left' rfl
  rw [frameAt, hunpack, hd', beAt_bytes h]
  simp only [Sent.timedHeader, Gateway.wzcpHeaderSize, Nat.add_sub_cancel_left, ne_eq, not_true_eq_false,
    if_false]
  rw [← Gateway.wzcpHeaderSize, hbody]
  rfl

theorem looksLikeWzcp_bytes (h : f.body.length + 32 ≤ 1024 * 1024) (tail : List UInt8) :
    looksLikeWzcp (f.bytes ++ tail) = true := by
  have hmagic : beAt (f.bytes ++ tail) 4 4 = Gateway.wzcpMagic := by
    rw [beAt, drop_bytes, packHeader, List.append_assoc, List.take_left' (length_be32 _), be32,
      beNat_beBytes 4 _ (UInt32.toNat_lt _)]
    rfl
  rw [Gateway.looksLikeWzcp_iff, beAt_bytes (by omega), List.length_append, f.length_bytes,
    Gateway.wzcpHeaderSize, Gateway.wzcpMaxFrame]
  exact ⟨by omega, by omega, by omega, hmagic⟩

/-- Bytes that are one frame are handled as one. -/
theorem processFrames_alone {w : List UInt8} {g : Frame} (hframe : frameAt w = some g)
    (hmin : Gateway.wzcpHeaderSize ≤ beAt w 0 4) (hmax : beAt w 0 4 ≤ Gateway.wzcpMaxFrame)
    (hlen : w.length = 4 + beAt w 0 4) (cfg : Gateway.Config) (c : ℕ) (ans : ℕ → Gateway.Answers)
    {s : Gateway.State} {conn : Gateway.Conn} (hget : s.conns.get c = some conn) :
    processFrames cfg c ans s w =
      let r := processFrame cfg
        (s.setConn c fun conn => conn.classify (Go.str "agent_wzcp") (Go.str "agent")) c
        (conn.classify (Go.str "agent_wzcp") (Go.str "agent")) g (ans (w.length - 1))
      (r.1, if r.2 then some w.length else none) := by
  obtain ⟨n, hn⟩ : ∃ n, w.length = n + 2 := ⟨w.length - 2, by
    rw [Gateway.wzcpHeaderSize] at hmin
    omega⟩
  -- behind the frame there is nothing left
  have hrest : ∀ s', Gateway.framesLoop cfg c ans (n + 1) s' w (0 + (4 + beAt w 0 4)) =
      (s', some w.length) := by
    intro s'
    rw [Gateway.framesLoop, Nat.zero_add, ← hlen, List.drop_length]
    rfl
  rw [processFrames, hn, Gateway.framesLoop]
  dsimp only
  rw [List.drop_zero, if_neg (by omega), if_neg (by omega), if_neg (by omega), hframe,
    Gateway.get_setConn _ hget]
  dsimp only
  have hpred : n + 2 - 1 = n + 1 := rfl
  rw [hrest, hn, hpred]
  split_ifs
  · rfl
  · rfl

theorem handledAlone_bytes (h : f.body.length + 32 ≤ 1024 * 1024) : f.HandledAlone f.bytes := by
  have hle : f.body.length ≤ 1024 * 1024 := by omega
  have hsame : f.bytes ++ [] = f.bytes := List.append_nil _
  have hbeAt : beAt f.bytes 0 4 = 32 + f.body.length := by
    rw [← hsame]
    exact beAt_bytes hle
  refine ⟨hsame ▸ looksLikeWzcp_bytes h [], hsame ▸ gatewayUnpack_bytes hle [], ?_⟩
  intro cfg c ans s conn hget
  refine processFrames_alone (hsame ▸ frameAt_bytes hle []) ?_ ?_ ?_ cfg c ans hget
  · rw [hbeAt, Gateway.wzcpHeaderSize]
    omega
  · rw [hbeAt, Gateway.wzcpMaxFrame]
    omega
  · rw [hbeAt, f.length_bytes]
    omega

end ToGateway

/-! ### What the gateway sends -/

/-- The gateway lays frames out as agents do. -/
theorem gatewaySendFrame_eq (f : Sent) :
    gatewaySendFrame f.msgType f.agentID f.seq f.timestampMs f.body = f.bytes := by
  simp only [gatewaySendFrame, Sent.bytes, frameBytes, packHeader, frameHeader, List.append_assoc]
  rfl

/-- A frame whose body fits is received, unless its length is taken for another one. -/
theorem recvFrame_bytes {f : Sent} {bodyCap : UInt32} (hfits : f.body.length ≤ bodyCap.toNat)
    (rest : List UInt8) : recvFrame (f.bytes ++ rest) bodyCap =
      if f.body.length ≤ 1024 * 1024 ∧ bodyCap.toNat + 32 < 2 ^ 32 then some (f.header, f.body, rest)
      else none := by
  have hcap := bodyCap.toNat_lt
  have hlen : (UInt32.ofNat f.body.length).toNat = f.body.length :=
    UInt32.toNat_ofNat_of_lt' (by rw [UInt32.size]; omega)
  have hsize : wzcpHeaderSize.toNat = 32 := rfl
  have hframe : (wzcpHeaderSize + UInt32.ofNat f.body.length).toNat = (32 + f.body.length) % 2 ^ 32 := by
    rw [UInt32.toNat_add, hlen, hsize]
  have hroom : (wzcpHeaderSize + bodyCap).toNat = (32 + bodyCap.toNat) % 2 ^ 32 := by
    rw [UInt32.toNat_add, hsize]
  have hfirst : readFull 4 (f.bytes ++ rest) =
      some (be32 (wzcpHeaderSize + UInt32.ofNat f.body.length),
        packHeader f.header ++ (f.body ++ rest)) := by
    refine readFull_eq_some.mpr ⟨length_be32 _, ?_⟩
    rw [Sent.bytes, frameBytes, List.append_assoc, List.append_assoc]
    rfl
  have hsecond : readFull 32 (packHeader f.header ++ (f.body ++ rest)) =
      some (packHeader f.header, f.body ++ rest) :=
    readFull_eq_some.mpr ⟨length_packHeader _, rfl⟩
  have hvalid : f.header.Valid ↔ f.body.length ≤ 1024 * 1024 := by
    have hbody : f.header.bodyLen.toNat = f.body.length := hlen
    have hmax : wzcpMaxFrame.toNat = 1024 * 1024 := rfl
    rw [WzcpHeader.Valid, UInt32.le_iff_toNat_le, hbody, hmax]
    exact ⟨fun h => h.2.2.2, fun h => ⟨rfl, rfl, rfl, h⟩⟩
  rw [recvFrame, hfirst]
  simp only [Option.bind_eq_bind, Option.bind_some, word32_be32, UInt32.lt_iff_toNat_lt, gt_iff_lt,
    hframe, hroom, hsize]
  by_cases hwrap : bodyCap.toNat + 32 < 2 ^ 32
  · rw [if_neg (by omega), hsecond, Option.bind_some, unpackHeader_packHeader]
    by_cases hle : f.body.length ≤ 1024 * 1024
    · -- the header gives the body the length that the frame gives it
      have hdiff : f.header.bodyLen = wzcpHeaderSize + UInt32.ofNat f.body.length - wzcpHeaderSize := by
        rw [UInt32.add_comm, UInt32.add_sub_cancel]
        rfl
      have hbody : f.header.bodyLen.toNat = f.body.length := hlen
      have hlast : readFull f.body.length (f.body ++ rest) = some (f.body, rest) := readFull_append _ _
      rw [if_pos (hvalid.mpr hle), if_pos ⟨hle, hwrap⟩, Option.bind_some, if_neg (not_not.mpr hdiff),
        hbody, hlast]
      rfl
    · rw [if_neg (fun h => hle (hvalid.mp h)), if_neg (fun h => hle h.1)]
      rfl
  · -- the size of the buffer and of a header is more than 32 bits hold
    rw [if_pos (by omega), if_neg (fun h => hwrap h.2)]

theorem arrives_toGateway_iff (f : Sent) :
    (Transfer.toGateway f).Arrives ↔ (Transfer.toGateway f).InLimits := by
  constructor
  · intro h
    by_contra hlimits
    obtain ⟨hlong, hshort⟩ := not_or.mp hlimits
    obtain ⟨pieces, hpieces⟩ := @sendFrame_of_le f.msgType f.agentID f.seq f.timestampMs f.body
      (Nat.le_of_not_lt hshort)
    obtain ⟨-, hbytes⟩ := sendFrame_eq_some hpieces
    -- the gateway looks at the length of the frame, which is too long
    have hlooks := (h pieces hpieces).looks
    rw [hbytes, ← Sent.bytes, ← List.append_nil f.bytes, Gateway.looksLikeWzcp_iff,
      beAt_bytes (Nat.le_of_not_lt hshort), Gateway.wzcpMaxFrame] at hlooks
    omega
  · rintro hlimits pieces hpieces
    obtain ⟨hle, hbytes⟩ := sendFrame_eq_some hpieces
    rw [hbytes]
    refine handledAlone_bytes (hlimits.resolve_right ?_)
    exact Nat.not_lt.mpr hle

theorem arrives_toAgent_iff (f : Sent) (bodyCap : UInt32) :
    (Transfer.toAgent f bodyCap).Arrives ↔ (Transfer.toAgent f bodyCap).InLimits := by
  refine forall_congr' fun hfits => ?_
  rw [gatewaySendFrame_eq]
  constructor
  · intro h
    specialize h []
    rw [recvFrame_bytes hfits] at h
    split_ifs at h with hlimits
    exact hlimits
  · intro hlimits rest
    rw [recvFrame_bytes hfits, if_pos hlimits]

/-- **A frame arrives as it was sent exactly if its body is within the limits.** -/
theorem arrives_iff (t : Transfer) : t.Arrives ↔ t.InLimits := by
  rcases t with f | ⟨f, bodyCap⟩
  · exact arrives_toGateway_iff f
  · exact arrives_toAgent_iff f bodyCap

/-- A frame with a body of so many zeros. -/
def zeros (n : ℕ) : Sent where
  msgType := wzcpMsgEventBatch
  agentID := 1
  seq := 1
  timestampMs := 0
  body := List.replicate n 0

theorem arrives_zeros_iff (n : ℕ) :
    (Transfer.toGateway (zeros n)).Arrives ↔ n + 32 ≤ 1024 * 1024 ∨ 1024 * 1024 < n := by
  have hlen : (zeros n).body.length = n := List.length_replicate
  rw [arrives_toGateway_iff, Transfer.InLimits, hlen]

/-- An agent sends a body of a mebibyte, and the gateway does not take it for a frame. -/
theorem mebibyte_lost : ¬(Transfer.toGateway (zeros (1024 * 1024))).Arrives := by
  rw [arrives_zeros_iff]
  omega

end Agent

end Xsiam
