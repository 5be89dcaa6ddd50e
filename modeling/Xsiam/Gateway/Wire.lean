import Xsiam.Gateway.Agents
import Xsiam.Lib.Codec

/-!
# What agents send

The messages of the WZCP protocol and of syslog, as `xsiam_agent_conn.c` reads them. The
bodies of HELLO and EVENT_BATCH frames are read with an offset that every item moves on, and
a body is refused when an item would end behind it. Strings are copied into buffers of fixed
sizes and are C strings from then on: a NUL ends them.
-/

namespace Xsiam

namespace Gateway

open Go (str)

/-! ### Frames -/

/-- `WZCP_MSG_HELLO` -/
def wzcpMsgHello : UInt8 := 1

/-- `WZCP_MSG_EVENT_BATCH` -/
def wzcpMsgEventBatch : UInt8 := 2

/-- `WZCP_MSG_HEARTBEAT` -/
def wzcpMsgHeartbeat : UInt8 := 4

/-- A frame whose header was accepted: what the handlers read of `wzcp_header`, and the body,
which is as long as the header says. -/
structure Frame where
  msgType : UInt8
  agentID : UInt32 := 0
  seq : UInt64
  body : List UInt8 := []
deriving DecidableEq

/-- `get_be16` and `get_be64`: the number in the `k` bytes at an offset. -/
def beAt (body : List UInt8) (off k : ℕ) : ℕ := Codec.beNat ((body.drop off).take k)

/-- `read_string`, into a buffer of `outSize` bytes. -/
def readString (body : List UInt8) (off outSize : ℕ) : Option (CString × ℕ) :=
  if off + 2 > body.length ∨ outSize = 0 then none
  else
    let len := beAt body off 2
    let off := off + 2
    if off + len > body.length ∨ len ≥ outSize then none
    else some (cString ((body.drop off).take len), off + len)

/-! ### HELLO -/

/-- A byte as `json_escape_append` writes it. -/
def jsonEscapeByte (b : UInt8) : List UInt8 :=
  let hexDigit (n : UInt8) : UInt8 := if n < 10 then 0x30 + n else 0x57 + n
  if b = 0x5C then [0x5C, 0x5C]
  else if b = 0x22 then [0x5C, 0x22]
  else if b = 0x0A then [0x5C, 0x6E]
  else if b = 0x0D then [0x5C, 0x72]
  else if b = 0x09 then [0x5C, 0x74]
  else if b < 0x20 then [0x5C, 0x75, 0x30, 0x30, hexDigit (b / 16), hexDigit (b % 16)]
  else [b]

/-- `json_escape_append` -/
def jsonEscape (value : CString) : List UInt8 := value.flatMap jsonEscapeByte

/-- A string of the list of addresses. -/
def quoted (mac : CString) : List UInt8 := [0x22] ++ jsonEscape mac ++ [0x22]

/-- `mac_addresses_json` -/
def macAddressesJSON (macs : List CString) : CString :=
  [0x5B] ++ [0x2C].intercalate (macs.map quoted) ++ [0x5D]

/-- The loop that reads the addresses. -/
def readMacs : ℕ → List UInt8 → ℕ → Option (List CString)
  | 0, _, _ => some []
  | n + 1, body, off =>
    match readString body off 32 with
    | none => none
    | some (mac, off) => (readMacs n body off).map (mac :: ·)

/-- The part of a HELLO that depends on its schema version. -/
def readHost (schemaVersion : ℕ) (body : List UInt8) (off : ℕ) :
    Option (CString × Option CString) :=
  if 2 ≤ schemaVersion then
    match readString body off 16 with
    | none => none
    | some (hostType, off) =>
      if off + 2 > body.length then none
      else (readMacs (beAt body off 2) body (off + 2)).map fun macs =>
        (hostType, some (macAddressesJSON macs))
  else some ([], none)

/-- What `process_hello` reads. -/
def parseHello (body : List UInt8) : Option Hello :=
  if body.length < 4 then none
  else if beAt body 0 2 < 1 then none
  else
    match readString body 4 128 with
    | none => none
    | some (agentID, off) =>
      match readString body off 256 with
      | none => none
      | some (agentName, off) =>
        match readString body off 64 with
        | none => none
        | some (agentVersion, off) =>
          (readHost (beAt body 0 2) body off).map fun host =>
            ⟨agentID, agentName, agentVersion, host.1, host.2⟩

/-! ### EVENT_BATCH -/

/-- An event of a batch. -/
structure EventRecord where
  kind : UInt8
  eventID : ℕ
  payload : List UInt8
deriving DecidableEq

/-- The loop that reads the events. -/
def readEvents : ℕ → List UInt8 → ℕ → Option (List EventRecord)
  | 0, _, _ => some []
  | n + 1, body, off =>
    if off + 20 > body.length then none
    else
      let kind := body.getD off 0
      let eventID := beAt body (off + 10) 8
      let payloadLen := beAt body (off + 18) 2
      let off := off + 20
      if off + payloadLen > body.length then none
      else
        (readEvents n body (off + payloadLen)).map
          (⟨kind, eventID, (body.drop off).take payloadLen⟩ :: ·)

/-- What `process_event_batch` reads. -/
def parseEventBatch (body : List UInt8) : Option (List EventRecord) :=
  if body.length < 2 then none else readEvents (beAt body 0 2) body 2

/-! ### Syslog -/

/-- The lines of a text that end in it, after what was read of the first one. -/
def completeLines : List UInt8 → List UInt8 → List (List UInt8)
  | _, [] => []
  | line, b :: text =>
    if b = 0x0A then line :: completeLines [] text else completeLines (line ++ [b]) text

/-- A line without the `\r` before its end. -/
def trimCR (line : List UInt8) : List UInt8 :=
  if line.getLast? = some 0x0D then line.dropLast else line

/-- A line as it is handed on: its length is cast to 16 bits. -/
def castLine (line : List UInt8) : List UInt8 := line.take (line.length % 2 ^ 16)

/-- What `process_syslog_lines` finds in its buffer. -/
def syslogLines (text : List UInt8) : List (List UInt8) :=
  (((completeLines [] text).map trimCR).filter (· ≠ [])).map castLine

/-! ### Inputs -/

/-- What a connection reads: a frame, or the text of a buffer that looks like syslog. -/
inductive Input where
  | frame (f : Frame)
  | syslog (text : List UInt8)
deriving DecidableEq

/-- The agent an input binds its connection to: the one that a HELLO announces, if it is
accepted and names one. -/
def Input.announced : Input → Option CString
  | .frame f =>
    if f.msgType = wzcpMsgHello then
      match parseHello f.body with
      | none => none
      | some hello => if hello.agentID = [] then none else some hello.agentID
    else none
  | .syslog _ => none

end Gateway

end Xsiam
