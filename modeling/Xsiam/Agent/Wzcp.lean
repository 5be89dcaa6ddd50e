import Xsiam.Lib.Codec

/-!
# The protocol as agents speak it

`xsiam_wzcp.c` of the agents: frames with a header of 32 bytes behind a length of four, and the
bodies of HELLO, EVENT_BATCH and ACK. A frame is written in up to three pieces, each by a call of
its own. Strings are C strings, and a null pointer is an empty one.
-/

namespace Xsiam

namespace Agent

open Codec

/-! ### Headers -/

/-- `XSIAM_WZCP_MAGIC` -/
def wzcpMagic : UInt32 := 0x575A4350

/-- `XSIAM_WZCP_VERSION` -/
def wzcpVersion : UInt8 := 1

/-- `XSIAM_WZCP_HEADER_SIZE` -/
def wzcpHeaderSize : UInt32 := 32

/-- `XSIAM_WZCP_MAX_FRAME` -/
def wzcpMaxFrame : UInt32 := 1024 * 1024

/-- `XSIAM_WZCP_MSG_HELLO` -/
def wzcpMsgHello : UInt8 := 1

/-- `XSIAM_WZCP_MSG_EVENT_BATCH` -/
def wzcpMsgEventBatch : UInt8 := 2

/-- `XSIAM_WZCP_MSG_ACK` -/
def wzcpMsgAck : UInt8 := 3

/-- `XSIAM_WZCP_MSG_HEARTBEAT` -/
def wzcpMsgHeartbeat : UInt8 := 4

/-- `XSIAM_WZCP_EVENT_LOG` -/
def wzcpEventLog : UInt8 := 1

/-- `xsiam_wzcp_header` -/
structure WzcpHeader where
  magic : UInt32 := wzcpMagic
  version : UInt8 := wzcpVersion
  headerLen : UInt8 := 32
  flags : UInt8 := 0
  msgType : UInt8
  agentID : UInt32
  seq : UInt64
  timestampMs : UInt64
  bodyLen : UInt32
deriving DecidableEq

/-- `xsiam_wzcp_pack_header` -/
def packHeader (h : WzcpHeader) : List UInt8 :=
  be32 h.magic ++ ([h.version, h.headerLen, h.flags, h.msgType] ++ (be32 h.agentID ++
    (be64 h.seq ++ (be64 h.timestampMs ++ be32 h.bodyLen))))

/-- What is asked of a header. -/
def WzcpHeader.Valid (h : WzcpHeader) : Prop :=
  h.magic = wzcpMagic ∧ h.version = wzcpVersion ∧ h.headerLen = 32 ∧ h.bodyLen ≤ wzcpMaxFrame

instance (h : WzcpHeader) : Decidable h.Valid := inferInstanceAs (Decidable (_ ∧ _))

/-- The header that 32 bytes are. -/
def headerOf (bs : List UInt8) : WzcpHeader where
  magic := word32 (bs.take 4)
  version := bs.getD 4 0
  headerLen := bs.getD 5 0
  flags := bs.getD 6 0
  msgType := bs.getD 7 0
  agentID := word32 ((bs.drop 8).take 4)
  seq := word64 ((bs.drop 12).take 8)
  timestampMs := word64 ((bs.drop 20).take 8)
  bodyLen := word32 ((bs.drop 28).take 4)

/-- `xsiam_wzcp_unpack_header` -/
def unpackHeader (bs : List UInt8) : Option WzcpHeader :=
  if (headerOf bs).Valid then some (headerOf bs) else none

/-! ### Frames -/

/-- The header of a frame. -/
def frameHeader (msgType : UInt8) (agentID : UInt32) (seq now : UInt64) (body : List UInt8) :
    WzcpHeader where
  msgType
  agentID
  seq
  timestampMs := now
  bodyLen := UInt32.ofNat body.length

/-- `xsiam_wzcp_send_frame`: what it writes, piece by piece. -/
def sendFrame (msgType : UInt8) (agentID : UInt32) (seq now : UInt64) (body : List UInt8) :
    Option (List (List UInt8)) :=
  if wzcpMaxFrame.toNat < body.length then none
  else some (be32 (wzcpHeaderSize + UInt32.ofNat body.length) ::
    packHeader (frameHeader msgType agentID seq now body) :: if body = [] then [] else [body])

/-- `xsiam_wzcp_recv_frame`, into a buffer of `bodyCap` bytes: the header and the body, and what is
left of the stream. -/
def recvFrame (stream : List UInt8) (bodyCap : UInt32) :
    Option (WzcpHeader × List UInt8 × List UInt8) := do
  let (lenBuf, stream) ← readFull 4 stream
  let frameLen := word32 lenBuf
  if frameLen < wzcpHeaderSize ∨ frameLen > wzcpHeaderSize + bodyCap then none
  else
    let (hdr, stream) ← readFull 32 stream
    let h ← unpackHeader hdr
    if h.bodyLen ≠ frameLen - wzcpHeaderSize then none
    else
      let (body, stream) ← readFull h.bodyLen.toNat stream
      pure (h, body, stream)

/-! ### HELLO -/

/-- `put_string`, behind what was put before. The length is cast to 16 bits. -/
def putString (outCap : ℕ) (out value : List UInt8) : Option (List UInt8) :=
  let len := value.length % 2 ^ 16
  if out.length + 2 + len > outCap then none
  else some (out ++ beBytes 2 len ++ value.take len)

/-- The loop of `put_mac_csv`: what was put, and how many. -/
def putMacs (outCap : ℕ) : List (List UInt8) → ℕ → List UInt8 → Option (ℕ × List UInt8)
  | [], count, out => some (count, out)
  | item :: items, count, out =>
    if 64 ≤ count then some (count, out)
    else if item.dropWhile (· = 0x20) = [] then putMacs outCap items count out
    else
      match putString outCap out (item.dropWhile (· = 0x20)) with
      | none => none
      | some out => putMacs outCap items (count + 1) out

/-- `snprintf` of a string into a buffer of so many bytes. -/
def printed (size : ℕ) (s : List UInt8) : List UInt8 := s.take (size - 1)

/-- The tokens that `strtok_r` finds between commas. -/
def tokens (s : List UInt8) : List (List UInt8) := (s.splitOn 0x2C).filter (· ≠ [])

/-- `put_mac_csv`. The count is put in front of the addresses when they are there. -/
def putMacCsv (outCap : ℕ) (out csv : List UInt8) : Option (List UInt8) :=
  if out.length + 2 > outCap then none
  else if csv = [] then some (out ++ beBytes 2 0)
  else (putMacs outCap (tokens (printed 512 csv)) 0 (out ++ beBytes 2 0)).map fun p =>
    p.2.take out.length ++ beBytes 2 p.1 ++ p.2.drop (out.length + 2)

/-- `xsiam_wzcp_build_hello_ex` -/
def buildHelloEx (outCap : ℕ) (agentID agentName agentVersion hostType macAddressesCsv : List UInt8) :
    Option (List UInt8) :=
  if outCap < 4 then none
  else do
    let out ← putString outCap (beBytes 2 2 ++ beBytes 2 0) agentID
    let out ← putString outCap out agentName
    let out ← putString outCap out agentVersion
    let out ← putString outCap out hostType
    putMacCsv outCap out macAddressesCsv

/-! ### The other bodies -/

/-- `xsiam_wzcp_build_event_batch`, of one event -/
def buildEventBatch (outCap : ℕ) (now eventID : UInt64) (kind : UInt8) (payload : List UInt8) :
    Option (List UInt8) :=
  if 0xFFFF < payload.length ∨ outCap < 21 + payload.length then none
  else some (beBytes 2 1 ++ [kind, 0] ++ be64 now ++ be64 eventID ++ beBytes 2 payload.length ++
    payload)

/-- `xsiam_wzcp_build_ack` -/
def buildAck (outCap : ℕ) (highestSeq : UInt64) : Option (List UInt8) :=
  if outCap < 8 then none else some (be64 highestSeq)

/-! ### Headers, there and back -/

@[simp] theorem length_packHeader (h : WzcpHeader) : (packHeader h).length = 32 := by
  simp [packHeader]

/-- The bytes of a header that have a field each. -/
def WzcpHeader.small (h : WzcpHeader) : List UInt8 := [h.version, h.headerLen, h.flags, h.msgType]

theorem packHeader_getD (h : WzcpHeader) (tail : List UInt8) (i : ℕ) (hi : i < 4) :
    (packHeader h ++ tail).getD (4 + i) 0 = h.small.getD i 0 := by
  have hsmall : ((packHeader h ++ tail).drop 4).take 4 = h.small :=
    take_drop_of_append (be32 h.magic) _ (List.append_assoc ..) (length_be32 _) rfl
  rw [← hsmall, List.getD_eq_getElem?_getD, List.getD_eq_getElem?_getD, List.getElem?_take_of_lt hi,
    List.getElem?_drop]

/-- A header is read as it was packed, whatever is behind it. -/
theorem headerOf_packHeader (h : WzcpHeader) (tail : List UInt8) :
    headerOf (packHeader h ++ tail) = h := by
  have hlength : h.small.length = 4 := rfl
  have happend : packHeader h ++ tail = be32 h.magic ++ (h.small ++ (be32 h.agentID ++
      (be64 h.seq ++ (be64 h.timestampMs ++ (be32 h.bodyLen ++ tail))))) := by
    simp [packHeader, WzcpHeader.small]
  have hmagic : (packHeader h ++ tail).take 4 = be32 h.magic := by
    rw [happend]
    exact List.take_left' (length_be32 _)
  have hid : ((packHeader h ++ tail).drop 8).take 4 = be32 h.agentID :=
    take_drop_of_append (be32 h.magic ++ h.small) _ (by rw [happend, List.append_assoc])
      (by simp [hlength]) (length_be32 _)
  have hseq : ((packHeader h ++ tail).drop 12).take 8 = be64 h.seq :=
    take_drop_of_append (be32 h.magic ++ h.small ++ be32 h.agentID)
      (be64 h.timestampMs ++ (be32 h.bodyLen ++ tail))
      (by rw [happend]; simp only [List.append_assoc]) (by simp [hlength]) (length_be64 _)
  have htime : ((packHeader h ++ tail).drop 20).take 8 = be64 h.timestampMs :=
    take_drop_of_append (be32 h.magic ++ h.small ++ be32 h.agentID ++ be64 h.seq)
      (be32 h.bodyLen ++ tail)
      (by rw [happend]; simp only [List.append_assoc]) (by simp [hlength]) (length_be64 _)
  have hlen : ((packHeader h ++ tail).drop 28).take 4 = be32 h.bodyLen :=
    take_drop_of_append (be32 h.magic ++ h.small ++ be32 h.agentID ++ be64 h.seq ++ be64 h.timestampMs)
      tail (by rw [happend]; simp only [List.append_assoc]) (by simp [hlength]) (length_be32 _)
  rw [headerOf, hmagic, hid, hseq, htime, hlen, packHeader_getD h tail 0 (by decide),
    packHeader_getD h tail 1 (by decide), packHeader_getD h tail 2 (by decide),
    packHeader_getD h tail 3 (by decide)]
  simp [WzcpHeader.small]

/-- **A header that is valid is unpacked as it was packed.** -/
theorem unpackHeader_packHeader (h : WzcpHeader) :
    unpackHeader (packHeader h) = if h.Valid then some h else none := by
  have hheader := headerOf_packHeader h []
  rw [List.append_nil] at hheader
  rw [unpackHeader, hheader]

/-! ### Frames as they are written -/

/-- The bytes of a frame. -/
def frameBytes (msgType : UInt8) (agentID : UInt32) (seq now : UInt64) (body : List UInt8) :
    List UInt8 :=
  be32 (wzcpHeaderSize + UInt32.ofNat body.length) ++
    (packHeader (frameHeader msgType agentID seq now body) ++ body)

variable {msgType : UInt8} {agentID : UInt32} {seq now : UInt64} {body : List UInt8}

/-- A frame that is accepted is written whole. -/
theorem sendFrame_eq_some {pieces : List (List UInt8)} :
    sendFrame msgType agentID seq now body = some pieces →
      body.length ≤ wzcpMaxFrame.toNat ∧
        pieces.flatten = frameBytes msgType agentID seq now body := by
  rw [sendFrame]
  split_ifs with hmax hbody
  · exact fun h => nomatch h
  · intro h
    cases h
    exact ⟨Nat.le_of_not_lt hmax, by simp [frameBytes, hbody]⟩
  · intro h
    cases h
    exact ⟨Nat.le_of_not_lt hmax, by simp [frameBytes]⟩

theorem sendFrame_of_le (h : body.length ≤ wzcpMaxFrame.toNat) :
    ∃ pieces, sendFrame msgType agentID seq now body = some pieces := by
  rw [sendFrame, if_neg (Nat.not_lt.mpr h)]
  exact ⟨_, rfl⟩

end Agent

end Xsiam
