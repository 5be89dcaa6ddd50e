import Xsiam.Gateway.Conn

/-!
# Bytes of a connection

What a connection reads comes in pieces that have nothing to do with its messages. `conn_event`
collects them in a buffer, which grows by chunks up to a limit, and after each read looks at the
buffer from the start: it holds frames of the WZCP protocol, or lines of syslog, or nothing that can
be told yet (`Xsiam.Gateway.processBuffer`). What was handled is taken out of the buffer.
-/

namespace Xsiam

namespace Gateway

open Go (str)

/-! ### Headers -/

/-- `WZCP_MAGIC` -/
def wzcpMagic : ℕ := 0x575A4350

/-- `WZCP_VERSION` -/
def wzcpVersion : UInt8 := 1

/-- `WZCP_HEADER_SIZE` -/
def wzcpHeaderSize : ℕ := 32

/-- `WZCP_MAX_FRAME` -/
def wzcpMaxFrame : ℕ := 1024 * 1024

/-- `wzcp_header`, as far as it is read again -/
structure WzcpHeader where
  msgType : UInt8
  agentID : UInt32
  seq : UInt64
  bodyLen : ℕ

/-- `unpack_header` -/
def unpackHeader (bs : List UInt8) : Option WzcpHeader :=
  if beAt bs 0 4 ≠ wzcpMagic ∨ bs.getD 4 0 ≠ wzcpVersion ∨ (bs.getD 5 0).toNat ≠ wzcpHeaderSize ∨
      beAt bs 28 4 > wzcpMaxFrame then none
  else
    some {
      msgType := bs.getD 7 0
      agentID := UInt32.ofNat (beAt bs 8 4)
      seq := UInt64.ofNat (beAt bs 12 8)
      bodyLen := beAt bs 28 4 }

/-! ### Protocol detection -/

/-- `looks_like_wzcp` -/
def looksLikeWzcp (buf : List UInt8) : Bool :=
  if buf.length < 4 + wzcpHeaderSize then false
  else if beAt buf 0 4 < wzcpHeaderSize ∨ beAt buf 0 4 > wzcpMaxFrame then false
  else beAt buf 4 4 = wzcpMagic

/-- A control character that no text has. -/
def isControl (c : UInt8) : Bool := c = 0 ∨ c < 0x09 ∨ (c > 0x0D ∧ c < 0x20)

/-- The loop of `looks_like_syslog`: a newline comes before any control character. -/
def newlineFirst : List UInt8 → Bool
  | [] => false
  | c :: cs => if c = 0x0A then true else if isControl c then false else newlineFirst cs

/-- A priority: an opening angle bracket, a digit, and something behind it. -/
def hasPriority (buf : List UInt8) : Bool :=
  buf.getD 0 0 = 0x3C ∧ buf.length > 2 ∧ buf.getD 1 0 ≥ 0x30 ∧ buf.getD 1 0 ≤ 0x39

/-- `looks_like_syslog` -/
def looksLikeSyslog (buf : List UInt8) : Bool :=
  if buf = [] then false
  else if hasPriority buf then true
  else newlineFirst (buf.take 128)

/-! ### The buffer -/

/-- The settings of buffers, each a `size_t`. -/
structure BufferConfig where
  chunkSize : UInt64 := 32768
  bufferSize : UInt64 := 32768 * 8

/-- `(int)ctx->chunk_size` -/
def BufferConfig.chunk (lim : BufferConfig) : ℤ := lim.chunkSize.toUInt32.toInt32.toInt

/-- `conn_add` gets its buffer: `malloc` takes the size as a `size_t`, so that a negative one is more than
there is, and then there is no connection. -/
def BufferConfig.Allocates (lim : BufferConfig) : Prop := 0 ≤ lim.chunk

instance (lim : BufferConfig) : Decidable lim.Allocates := inferInstanceAs (Decidable (0 ≤ lim.chunk))

/-- `buf_data`, of which `buf_len` is the length, and `buf_size` -/
structure Buffer where
  data : List UInt8 := []
  size : ℕ

/-- Room for more in a buffer that is full, or `none` where it may not grow. The new size is an `int`: where
it is not positive, or too large for one, nothing is allocated and the buffer stays as it is. -/
def Buffer.grow (lim : BufferConfig) (b : Buffer) : Option Buffer :=
  if b.size - b.data.length < 1 then
    if UInt64.ofNat b.size + lim.chunkSize > lim.bufferSize then none
    else if 0 < b.size + lim.chunk ∧ b.size + lim.chunk < 2 ^ 31 then
      some { b with size := (b.size + lim.chunk).toNat }
    else some b
  else some b

/-- `consume_bytes` -/
def consumeBytes (data : List UInt8) (bytes : ℕ) : List UInt8 :=
  if bytes > 0 ∧ bytes ≤ data.length then data.drop bytes else data

section Dispatch

variable (cfg : Config) (c : ℕ) (ans : ℕ → Answers)

/-- The frame at the start of some bytes that are as long as it is. -/
def frameAt (bs : List UInt8) : Option Frame :=
  match unpackHeader (bs.drop 4) with
  | none => none
  | some h =>
    if h.bodyLen ≠ beAt bs 0 4 - wzcpHeaderSize then none
    else some ⟨h.msgType, h.agentID, h.seq, (bs.drop (4 + wzcpHeaderSize)).take h.bodyLen⟩

/-- The loop of `process_frames`, in at most so many rounds. It gives the bytes consumed, or `none`
where it fails. -/
def framesLoop : ℕ → State → List UInt8 → ℕ → State × Option ℕ
  | 0, s, _, consumed => (s, some consumed)
  | n + 1, s, data, consumed =>
    let bs := data.drop consumed
    if bs.length < 4 + wzcpHeaderSize then (s, some consumed)
    else if beAt bs 0 4 < wzcpHeaderSize ∨ beAt bs 0 4 > wzcpMaxFrame then (s, none)
    else if bs.length < 4 + beAt bs 0 4 then (s, some consumed)
    else
      match frameAt bs, s.conns.get c with
      | some f, some conn =>
        let r := processFrame cfg s c conn f (ans n)
        if r.2 then framesLoop n r.1 data (consumed + (4 + beAt bs 0 4)) else (r.1, none)
      | _, _ => (s, none)

/-- `process_frames`. Every round consumes something, so there are not more rounds than bytes. -/
def processFrames (s : State) (data : List UInt8) : State × Option ℕ :=
  framesLoop cfg c ans data.length
    (s.setConn c fun conn => conn.classify (str "agent_wzcp") (str "agent")) data 0

/-- What `process_syslog_lines` consumes: all that is not behind the last newline. -/
def consumedLines (text : List UInt8) : ℕ :=
  text.length - (text.reverse.takeWhile (· ≠ 0x0A)).length

/-- `process_buffer` -/
def processBuffer (s : State) (conn : Conn) (data : List UInt8) : State × Option ℕ :=
  if looksLikeWzcp data then processFrames cfg c ans s data
  else if looksLikeSyslog data then
    let r := process cfg s c conn (ans 0) (.syslog data)
    (r.1, if r.2 then some (consumedLines data) else none)
  else if data.length ≥ 4 + wzcpHeaderSize then (s, none)
  else (s, some 0)

end Dispatch

/-! ### Reads -/

/-- A connection with its buffer, and the plugin around it. -/
structure Session where
  plugin : State
  buf : Buffer

/-- A read: the time, what the socket has, and how the calls of the handlers go. -/
structure Read where
  now : ℤ
  bytes : List UInt8
  ans : ℕ → Answers := fun _ => {}

/-- `conn_event` of a connection that can be read. A connection that is gone reads no more, and a
read brings no more than there is space for; where there is none nothing is read. -/
def connEvent (cfg : Config) (lim : BufferConfig) (c : ℕ) (s : Session) (r : Read) : Option Session :=
  let plugin := { s.plugin with now := r.now }
  match plugin.conns.get c with
  | none => some s
  | some conn =>
    match s.buf.grow lim with
    | none => some { s with plugin := connDel cfg plugin c }
    | some buf =>
      if buf.size - buf.data.length < max 1 r.bytes.length then none
      else if r.bytes = [] then some ⟨connDel cfg plugin c, buf⟩
      else
        let data := buf.data ++ r.bytes
        let p := processBuffer cfg c r.ans plugin conn data
        match p.2 with
        | none => some ⟨connDel cfg p.1 c, { buf with data }⟩
        | some processed => some ⟨p.1, { buf with data := consumeBytes data processed }⟩

/-- A connection as it is accepted, with an empty buffer of one chunk. -/
def Session.opened (lim : BufferConfig) (plugin : State) : Session :=
  ⟨plugin, { size := lim.chunk.toNat }⟩

/-- A connection is open. -/
def Session.Open (s : Session) (c : ℕ) : Prop := ∃ conn, s.plugin.conns.get c = some conn

end Gateway

end Xsiam
