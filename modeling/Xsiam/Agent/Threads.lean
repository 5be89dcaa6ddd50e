import Xsiam.Agent.Frames
import Xsiam.Gateway.FrameStream

/-!
# Threads that share a connection

The dispatcher of an agent sends events with `send_msg`, its receiver sends answers and heartbeats,
and all of them write to one socket, piece by piece and without the mutex that `send_msg` takes for
the other transport. Two frames whose pieces come between each other are none
(`Xsiam.Agent.heartbeats_torn`). As long as nobody writes while another frame is written in part, and
none was left that way, the stream is one frame behind the other, and the gateway reads them all
(`Xsiam.Agent.whole_of_alone`).
-/

namespace Xsiam

namespace Agent

open Codec Framing
open Gateway (Frame GoodFrame Input finder BufferConfig)

/-! ### What threads send -/

/-- What a thread has to send. -/
inductive Message where
  /-- `send_msg`, with the time and the number of the event -/
  | event (now eventID : UInt64) (msg : List UInt8)
  /-- the answer of `receive_msg` to a heartbeat -/
  | ack (highestSeq : UInt64)
  /-- `wzcp_send_heartbeat_if_due`, when it is due -/
  | heartbeat

/-- The type of its frame. -/
def Message.msgType : Message → UInt8
  | .event .. => wzcpMsgEventBatch
  | .ack _ => wzcpMsgAck
  | .heartbeat => wzcpMsgHeartbeat

/-- The body of its frame, if one can be built. -/
def Message.body : Message → Option (List UInt8)
  | .event now eventID msg => buildEventBatch (65536 + 128) now eventID wzcpEventLog msg
  | .ack highestSeq => buildAck 8 highestSeq
  | .heartbeat => some []

/-- A call that sends a message, with the number and the time that its header gets. -/
structure Call where
  message : Message
  agentID : UInt32
  seq : UInt64
  timestampMs : UInt64

/-- The frame of a call, with the body that was built. -/
def Call.sent (call : Call) (body : List UInt8) : Sent where
  msgType := call.message.msgType
  agentID := call.agentID
  seq := call.seq
  timestampMs := call.timestampMs
  body

/-- A frame on its way: what `send` has taken of it, and the pieces that are left. -/
structure Sending where
  frame : Sent
  written : List UInt8 := []
  left : List (List UInt8)

/-- A call up to its first `send`, or `none` where it fails before. -/
def Call.start (call : Call) : Option Sending :=
  call.message.body.bind fun body =>
    let f := call.sent body
    (sendFrame f.msgType f.agentID f.seq f.timestampMs f.body).map fun pieces =>
      { frame := f, left := pieces }

/-- A `send` of `send_all` that takes so many bytes of the piece: what it takes, and what is left. -/
def Sending.send (sd : Sending) (n : ℕ) : Option (List UInt8 × Sending) :=
  match sd.left with
  | [] => none
  | piece :: left =>
    if 0 < n ∧ n ≤ piece.length then
      some (piece.take n, { sd with
        written := sd.written ++ piece.take n
        left := if n = piece.length then left else piece.drop n :: left })
    else none

/-! ### The connection -/

/-- A connection, and the threads that are in a call. -/
structure Wire where
  /-- The bytes that were written. -/
  stream : List UInt8 := []
  sending : ℕ → Option Sending := fun _ => none
  /-- The frames whose calls have returned, in this order. -/
  sent : List Sent := []
  /-- A call has failed when part of its frame was written. -/
  torn : Bool := false

/-- A step of a thread. -/
inductive Event where
  | call (t : ℕ) (call : Call)
  | send (t n : ℕ)
  /-- `send` fails, and the call with it. -/
  | fail (t : ℕ)

/-- The frame of a thread, and what becomes of it. -/
def Wire.put (s : Wire) (t : ℕ) (sd : Option Sending) : Wire :=
  { s with sending := Function.update s.sending t sd }

/-- What a step does. -/
def step (s : Wire) : Event → Option Wire
  | .call t call =>
    match s.sending t with
    | some _ => none
    | none => some (s.put t call.start)
  | .send t n =>
    match s.sending t with
    | none => none
    | some sd => (sd.send n).map fun p =>
      let s := { s with stream := s.stream ++ p.1 }
      if p.2.left = [] then { s.put t none with sent := s.sent ++ [sd.frame] }
      else s.put t (some p.2)
  | .fail t => (s.sending t).map fun sd =>
    { s.put t none with torn := s.torn || decide (sd.written ≠ []) }

/-- A thread is within its frame. -/
def Wire.Within (s : Wire) (t : ℕ) : Prop := ∃ sd, s.sending t = some sd ∧ sd.written ≠ []

/-- No frame is written in part, but perhaps that of a thread. -/
def Wire.Free (s : Wire) (t : ℕ) : Prop := s.torn = false ∧ ∀ u, u ≠ t → ¬s.Within u

/-- Nobody writes as long as another frame is written in part. -/
def Alone : Run.History Wire Event → Wire → Event → Prop
  | _, s, .send t _ => s.Free t
  | _, _, _ => True

/-- No frame is written in part. -/
def Wire.Quiet (s : Wire) : Prop := s.torn = false ∧ ∀ t, ¬s.Within t

/-- **The stream is whole**: it is made of the frames that were sent, in some order, the gateway reads
each of them, and what is behind them is part of one more frame, or nothing if no frame is written in
part. -/
def Wire.Whole (s : Wire) : Prop :=
  ∃ frames part, List.Perm frames s.sent ∧
    s.stream = frames.flatMap Sent.bytes ++ part ∧
    Reads (finder ({} : BufferConfig).maxSize) s.stream (frames.map fun f => .frame f.frame) (some part) ∧
    (∃ f : Sent, part <+: f.bytes ∧ part ≠ f.bytes) ∧
    (s.Quiet → part = [])

/-! ### Frames that arrive -/

/-- A frame that the gateway can take. -/
def Sent.Good (f : Sent) : Prop := GoodFrame {} f.bytes f.frame

theorem length_of_buildEventBatch {outCap : ℕ} {now eventID : UInt64} {kind : UInt8}
    {msg body : List UInt8} (h : buildEventBatch outCap now eventID kind msg = some body) :
    body.length = 22 + msg.length ∧ msg.length ≤ 0xFFFF := by
  rw [buildEventBatch] at h
  split_ifs at h with hlong
  cases h
  refine ⟨?_, by omega⟩
  simp only [List.length_append, length_beBytes, length_be64, List.length_cons, List.length_nil]

/-- The gateway reads the event that was put into a batch. -/
theorem parseEventBatch_build {outCap : ℕ} {now eventID : UInt64} {kind : UInt8}
    {msg body : List UInt8} (h : buildEventBatch outCap now eventID kind msg = some body) :
    Gateway.parseEventBatch body ≠ none := by
  obtain ⟨hlen, hmsg⟩ := length_of_buildEventBatch h
  have hcount : Gateway.beAt body 0 2 = 1 := by
    rw [buildEventBatch] at h
    split_ifs at h
    cases h
    rfl
  have hsize : Gateway.beAt body 20 2 = msg.length := by
    rw [buildEventBatch] at h
    split_ifs at h
    cases h
    have hfield : ((beBytes 2 1 ++ [kind, 0] ++ be64 now ++ be64 eventID ++ beBytes 2 msg.length ++
        msg).drop 20).take 2 = beBytes 2 msg.length :=
      take_drop_of_append (beBytes 2 1 ++ [kind, 0] ++ be64 now ++ be64 eventID) msg
        (by simp only [List.append_assoc]) (by simp) (length_beBytes 2 _)
    rw [Gateway.beAt, hfield, beNat_beBytes 2 _ (by omega)]
  rw [Gateway.parseEventBatch, if_neg (by omega), hcount, Gateway.readEvents, if_neg (by omega), hsize]
  dsimp only
  rw [if_neg (by omega)]
  exact Option.some_ne_none _

variable {m : Message} {body : List UInt8}

theorem length_body_le (h : m.body = some body) : body.length ≤ 22 + 0xFFFF := by
  cases m with
  | event now eventID msg =>
    obtain ⟨hlen, hmsg⟩ := length_of_buildEventBatch h
    omega
  | ack highestSeq =>
    obtain rfl : be64 highestSeq = body := Option.some.inj h
    rw [length_be64]
    omega
  | heartbeat =>
    obtain rfl : [] = body := Option.some.inj h
    exact Nat.zero_le _

/-- No thread sends a HELLO. -/
theorem msgType_ne_hello (m : Message) : m.msgType ≠ Gateway.wzcpMsgHello := by
  cases m <;> rw [Message.msgType] <;> decide

theorem parseEventBatch_body (h : m.body = some body)
    (htype : m.msgType = Gateway.wzcpMsgEventBatch) : Gateway.parseEventBatch body ≠ none := by
  cases m with
  | event now eventID msg => exact parseEventBatch_build h
  | ack highestSeq => exact absurd htype (by rw [Message.msgType]; decide)
  | heartbeat => exact absurd htype (by rw [Message.msgType]; decide)

/-- **What a thread sends is a frame that the gateway can take.** -/
theorem good_of_body {call : Call} (h : call.message.body = some body) : (call.sent body).Good := by
  have hlen : (call.sent body).body.length ≤ 22 + 0xFFFF := length_body_le h
  have hsame : (call.sent body).bytes ++ [] = (call.sent body).bytes := List.append_nil _
  have hmax : ({} : BufferConfig).maxSize = 262144 := by decide
  refine ⟨hsame ▸ looksLikeWzcp_bytes (by omega) [], ?_, hsame ▸ frameAt_bytes (by omega) [],
    ⟨fun htype => absurd htype (msgType_ne_hello _), parseEventBatch_body h⟩, ?_⟩
  · rw [← hsame, beAt_bytes (by omega), hsame, Sent.length_bytes]
    omega
  · rw [Sent.length_bytes, hmax]
    omega

/-- The start of a frame that is not the frame. -/
def Started (part : List UInt8) : Prop := ∃ f : Sent, f.Good ∧ part <+: f.bytes ∧ part ≠ f.bytes

/-- A heartbeat. -/
def heartbeat : Call := { message := .heartbeat, agentID := 0, seq := 0, timestampMs := 0 }

theorem started_nil : Started [] := by
  have hgood : (heartbeat.sent []).Good := good_of_body rfl
  refine ⟨_, hgood, List.nil_prefix, fun h => ?_⟩
  have hlen := (heartbeat.sent []).length_bytes
  rw [← h, List.length_nil] at hlen
  omega

/-- **Frames that are one behind the other are read**, and the start of one more is left. -/
theorem reads_frames {part : List UInt8} (hpart : Started part) {frames : List Sent} :
    (∀ f ∈ frames, f.Good) →
      Reads (finder ({} : BufferConfig).maxSize) (frames.flatMap Sent.bytes ++ part)
        (frames.map fun f => .frame f.frame) (some part) := by
  induction frames with
  | nil =>
    intro _
    obtain ⟨f, hgood, ⟨v, hv⟩, hne⟩ := hpart
    have hlong : v ≠ [] := by
      rintro rfl
      exact hne (by rw [← hv, List.append_nil])
    have hlen := congrArg List.length hv
    have hfits := hgood.fits
    rw [List.length_append] at hlen
    refine .more ?_
    rw [List.flatMap_nil, List.nil_append, Gateway.find_of_length_le (by omega)]
    exact (hv ▸ hgood : GoodFrame {} (part ++ v) f.frame).look_part hlong
  | cons f frames ih =>
    intro hgood
    obtain ⟨hf, hframes⟩ := List.forall_mem_cons.mp hgood
    have hfind : (finder ({} : BufferConfig).maxSize).find f.bytes =
        .message (.frame f.frame) f.bytes.length := by
      rw [Gateway.find_of_length_le hf.fits]
      exact hf.look
    rw [List.flatMap_cons, List.append_assoc, List.map_cons]
    refine .message ((finder _).message_append _ hfind) ?_
    rw [List.drop_left]
    exact ih hframes

/-! ### What a call writes -/

/-- What was written of a frame and what is left are the frame, and no piece is empty. -/
structure Sending.Sound (sd : Sending) : Prop where
  bytes : sd.written ++ sd.left.flatten = sd.frame.bytes
  pieces : ∀ piece ∈ sd.left, piece ≠ []
  good : sd.frame.Good

theorem Sending.Sound.of_start {call : Call} {sd : Sending} (h : call.start = some sd) :
    sd.Sound ∧ sd.written = [] ∧ sd.left ≠ [] := by
  obtain ⟨body, hbody, hmap⟩ := Option.bind_eq_some_iff.mp h
  obtain ⟨pieces, hpieces, rfl⟩ := Option.map_eq_some_iff.mp hmap
  obtain ⟨-, hbytes⟩ := sendFrame_eq_some hpieces
  have hne : ∀ piece ∈ pieces, piece ≠ [] := by
    rw [sendFrame] at hpieces
    split_ifs at hpieces with hmax hempty
    · cases hpieces
      simp [be32, beBytes, packHeader]
    · cases hpieces
      simp [be32, beBytes, packHeader, hempty]
  refine ⟨⟨hbytes, hne, good_of_body hbody⟩, rfl, ?_⟩
  rintro rfl
  have hlen := (call.sent body).length_bytes
  rw [Sent.bytes, ← hbytes] at hlen
  exact absurd hlen (by simp; omega)

variable {sd sd' : Sending} {bytes : List UInt8} {n : ℕ}

/-- A `send` takes some bytes of the frame. -/
theorem Sending.Sound.send (h : sd.Sound) (hsend : sd.send n = some (bytes, sd')) :
    sd'.Sound ∧ sd'.frame = sd.frame ∧ sd'.written = sd.written ++ bytes ∧ bytes ≠ [] := by
  rw [Sending.send] at hsend
  split at hsend
  · exact absurd hsend (by simp)
  · rename_i piece left hleft
    have hbytes := h.bytes
    have hpieces := h.pieces
    rw [hleft, List.flatten_cons] at hbytes
    rw [hleft] at hpieces
    split_ifs at hsend with hn hall
    · -- the rest of the piece
      cases hsend
      rw [hall, List.take_length]
      refine ⟨⟨?_, fun q hq => hpieces q (List.mem_cons_of_mem _ hq), h.good⟩, rfl, rfl,
        hpieces piece List.mem_cons_self⟩
      rw [List.append_assoc]
      exact hbytes
    · cases hsend
      refine ⟨⟨?_, ?_, h.good⟩, rfl, rfl, ?_⟩
      · rw [List.flatten_cons, List.append_assoc, ← List.append_assoc (piece.take n),
          List.take_append_drop]
        exact hbytes
      · refine List.forall_mem_cons.mpr ⟨fun hdrop => ?_, fun q hq =>
          hpieces q (List.mem_cons_of_mem _ hq)⟩
        have hlen := List.drop_eq_nil_iff.mp hdrop
        omega
      · intro htake
        have hlen := congrArg List.length htake
        rw [List.length_take, List.length_nil] at hlen
        omega

/-- As long as something is left, what was written is part of the frame. -/
theorem Sending.Sound.started (h : sd.Sound) (hleft : sd.left ≠ []) : Started sd.written := by
  refine ⟨sd.frame, h.good, ⟨_, h.bytes⟩, fun heq => ?_⟩
  obtain ⟨piece, left, hcons⟩ := List.exists_cons_of_ne_nil hleft
  have hbytes := h.bytes
  rw [← heq, List.append_right_eq_self, hcons, List.flatten_cons, List.append_eq_nil_iff] at hbytes
  exact h.pieces piece (hcons ▸ List.mem_cons_self) hbytes.1

/-! ### The invariant -/

/-- What is behind the frames that were sent. -/
inductive Wire.Tail (s : Wire) : List UInt8 → Prop where
  | quiet : s.Quiet → s.Tail []
  | within {t : ℕ} {sd : Sending} : s.Free t → s.sending t = some sd → sd.written ≠ [] →
      s.Tail sd.written
  | torn {part : List UInt8} : s.torn = true → Started part → s.Tail part

/-- The stream is the frames that were sent, and a tail. -/
structure Wire.Sound (s : Wire) : Prop where
  sending : ∀ t sd, s.sending t = some sd → sd.Sound ∧ sd.left ≠ []
  sent : ∀ f ∈ s.sent, f.Good
  stream : ∃ part, s.stream = s.sent.flatMap Sent.bytes ++ part ∧ s.Tail part

variable {s : Wire} {t : ℕ}

theorem Wire.sending_put_self (s : Wire) (t : ℕ) (new : Option Sending) :
    (s.put t new).sending t = new :=
  Function.update_self ..

theorem Wire.sending_put_of_ne (s : Wire) (new : Option Sending) {u : ℕ} (hu : u ≠ t) :
    (s.put t new).sending u = s.sending u :=
  Function.update_of_ne hu ..

theorem Wire.not_within_put {new : Option Sending} (hnew : ∀ x, new = some x → x.written = []) {u : ℕ}
    (h : (s.put t new).Within u) : s.Within u := by
  obtain ⟨x, hx, hwritten⟩ := h
  by_cases hu : u = t
  · rw [hu, sending_put_self] at hx
    exact absurd (hnew x hx) hwritten
  · rw [sending_put_of_ne s new hu] at hx
    exact ⟨x, hx, hwritten⟩

/-- A thread that may write goes on behind what it has written. -/
theorem Wire.Tail.eq_written {part : List UInt8} (h : s.Tail part) (hfree : s.Free t)
    (hsd : s.sending t = some sd) : part = sd.written := by
  cases h with
  | quiet hquiet =>
    by_contra hne
    exact hquiet.2 t ⟨sd, hsd, Ne.symm hne⟩
  | @within u sd' _ hsd' hne =>
    have hu : u = t := by
      by_contra hu
      exact hfree.2 u hu ⟨sd', hsd', hne⟩
    rw [hu, hsd] at hsd'
    cases hsd'
    rfl
  | torn htorn _ => exact absurd (htorn.symm.trans hfree.1) (by decide)

/-- Threads that are not in a frame come and go, and the tail stays. -/
theorem Wire.Tail.put {part : List UInt8} (h : s.Tail part) (hfresh : ¬s.Within t)
    {new : Option Sending} (hnew : ∀ x, new = some x → x.written = []) : (s.put t new).Tail part := by
  cases h with
  | quiet hquiet => exact .quiet ⟨hquiet.1, fun u hu => hquiet.2 u (not_within_put hnew hu)⟩
  | @within u sd hfree hsd hne =>
    have hu : u ≠ t := by
      rintro rfl
      exact hfresh ⟨sd, hsd, hne⟩
    refine .within ⟨hfree.1, fun v hv hin => hfree.2 v hv (not_within_put hnew hin)⟩ ?_ hne
    exact (s.sending_put_of_ne new hu).trans hsd
  | torn htorn hpart => exact .torn htorn hpart

theorem Wire.Sound.put_sending (h : s.Sound) {new : Option Sending}
    (hnew : ∀ x, new = some x → x.Sound ∧ x.left ≠ []) :
    ∀ u x, (s.put t new).sending u = some x → x.Sound ∧ x.left ≠ [] := by
  intro u x hx
  by_cases hu : u = t
  · rw [hu, Wire.sending_put_self] at hx
    exact hnew x hx
  · rw [s.sending_put_of_ne new hu] at hx
    exact h.sending u x hx

theorem Wire.Sound.call {s' : Wire} (h : s.Sound) {c : Call} (hstep : step s (.call t c) = some s') :
    s'.Sound := by
  rw [step] at hstep
  split at hstep
  · exact absurd hstep (by simp)
  · rename_i hnone
    cases hstep
    obtain ⟨part, hstream, htail⟩ := h.stream
    have hfresh : ¬s.Within t := fun ⟨sd, hsd, _⟩ => absurd (hnone.symm.trans hsd) (by simp)
    exact ⟨h.put_sending fun x hx => ⟨(Sending.Sound.of_start hx).1, (Sending.Sound.of_start hx).2.2⟩,
      h.sent, part, hstream, htail.put hfresh fun x hx => (Sending.Sound.of_start hx).2.1⟩

/-- **A thread writes within its frame, which is complete in the end.** -/
theorem Wire.Sound.send {s' : Wire} (h : s.Sound) (hfree : s.Free t)
    (hstep : step s (.send t n) = some s') : s'.Sound := by
  rw [step] at hstep
  split at hstep
  · exact absurd hstep (by simp)
  · rename_i sd hsd
    obtain ⟨⟨bytes, sd'⟩, hsend, rfl⟩ := Option.map_eq_some_iff.mp hstep
    obtain ⟨hsound, -⟩ := h.sending t sd hsd
    obtain ⟨hsound', hframe, hwritten, hbytes⟩ := hsound.send hsend
    obtain ⟨part, hstream, htail⟩ := h.stream
    obtain rfl := htail.eq_written hfree hsd
    -- what is behind the frames is what was written of this one
    have hbehind : s.stream ++ bytes = s.sent.flatMap Sent.bytes ++ sd'.written := by
      rw [hstream, hwritten, List.append_assoc]
    have hothers : ∀ new u, u ≠ t → ¬(s.put t new).Within u := by
      rintro new u hu ⟨x, hx, hne⟩
      rw [s.sending_put_of_ne new hu] at hx
      exact hfree.2 u hu ⟨x, hx, hne⟩
    dsimp only
    split_ifs with hleft
    · have hall := hsound'.bytes
      rw [hleft, List.flatten_nil, List.append_nil, hframe] at hall
      refine ⟨h.put_sending fun x hx => absurd hx (by simp), ?_, [], ?_, .quiet ⟨hfree.1, fun u hu => ?_⟩⟩
      · exact List.forall_mem_append.mpr ⟨h.sent, List.forall_mem_singleton.mpr hsound.good⟩
      · dsimp only [Wire.put]
        rw [hbehind, hall, List.flatMap_append, List.flatMap_singleton, List.append_nil]
      · by_cases hut : u = t
        · obtain ⟨x, hx, -⟩ := hu
          rw [hut] at hx
          exact absurd ((s.sending_put_self t none).symm.trans hx) (by simp)
        · exact hothers none u hut hu
    · refine ⟨h.put_sending fun x hx => Option.some.inj hx ▸ ⟨hsound', hleft⟩, h.sent, sd'.written,
        hbehind, .within ⟨hfree.1, hothers (some sd')⟩ (Function.update_self ..) ?_⟩
      rw [hwritten]
      exact fun hnil => hbytes (List.append_eq_nil_iff.mp hnil).2

theorem Wire.Sound.fail {s' : Wire} (h : s.Sound) (hstep : step s (.fail t) = some s') :
    s'.Sound := by
  obtain ⟨sd, hsd, rfl⟩ := Option.map_eq_some_iff.mp hstep
  obtain ⟨part, hstream, htail⟩ := h.stream
  have hnone : ∀ x : Sending, none = some x → x.written = [] := fun x hx => absurd hx (by simp)
  refine ⟨h.put_sending fun x hx => absurd hx (by simp), h.sent, part, hstream, ?_⟩
  by_cases hwritten : sd.written = []
  · have hfresh : ¬s.Within t := by
      rintro ⟨x, hx, hne⟩
      rw [hsd] at hx
      exact hne (Option.some.inj hx ▸ hwritten)
    have htorn : (s.torn || decide (sd.written ≠ [])) = s.torn := by simp [hwritten]
    rw [htorn]
    exact htail.put hfresh hnone
  · -- part of the frame stays where it is
    have htorn : (s.torn || decide (sd.written ≠ [])) = true := by simp [hwritten]
    refine .torn htorn ?_
    cases htail with
    | quiet hquiet => exact absurd ⟨sd, hsd, hwritten⟩ (hquiet.2 t)
    | @within u sd' _ hsd' _ => exact (h.sending u sd' hsd').1.started (h.sending u sd' hsd').2
    | torn _ hpart => exact hpart

/-- The invariant holds along every run in which nobody writes while another frame is written in
part. -/
theorem sound_of_reach {hist : Run.History Wire Event} (h : Run.Reach step Alone {} hist s) :
    s.Sound := by
  refine @Run.Reach.invariant _ _ _ _ _ (fun _ s => s.Sound) ?_ ?_ _ _ h
  · exact ⟨fun t sd hsd => absurd hsd (by simp), fun f hf => absurd hf List.not_mem_nil, [], rfl,
      .quiet ⟨rfl, fun t ⟨sd, hsd, _⟩ => absurd hsd (by simp)⟩⟩
  · rintro hist s s' ev hsound hok hstep
    cases ev with
    | call t c => exact hsound.call hstep
    | send t n => exact hsound.send hok hstep
    | fail t => exact hsound.fail hstep

/-- A tail is the start of a frame, and empty if no frame is written in part. -/
theorem Wire.Sound.whole (h : s.Sound) : s.Whole := by
  obtain ⟨part, hstream, htail⟩ := h.stream
  have hstarted : Started part := by
    cases htail with
    | quiet _ => exact started_nil
    | @within t sd _ hsd _ => exact (h.sending t sd hsd).1.started (h.sending t sd hsd).2
    | torn _ hpart => exact hpart
  have ⟨f, _, hprefix, hne⟩ := hstarted
  refine ⟨s.sent, part, .refl _, hstream, ?_, ⟨f, hprefix, hne⟩, ?_⟩
  · rw [hstream]
    exact reads_frames hstarted h.sent
  · intro hquiet
    cases htail with
    | quiet _ => rfl
    | within _ hsd hwritten => exact absurd ⟨_, hsd, hwritten⟩ (hquiet.2 _)
    | torn htorn _ => exact absurd (htorn.symm.trans hquiet.1) (by decide)

/-- **Frames are whole as long as nobody writes while another one is written in part.** -/
theorem whole_of_alone {hist : Run.History Wire Event} (h : Run.Reach step Alone {} hist s) :
    s.Whole :=
  (sound_of_reach h).whole

/-! ### A thread that is alone -/

/-- The connection when a frame of a thread was sent. -/
def Wire.done (s : Wire) (t : ℕ) (f : Sent) (bytes : List UInt8) : Wire :=
  { s.put t none with stream := s.stream ++ bytes, sent := s.sent ++ [f] }

/-- A thread sends the pieces that are left, when nobody else is in a call. -/
theorem exists_sent {left : List (List UInt8)} : ∀ {hist : Run.History Wire Event} {s : Wire}
    {sd : Sending}, Run.Reach step Alone {} hist (s.put t (some sd)) → s.torn = false →
      (∀ u, u ≠ t → s.sending u = none) → sd.left = left → left ≠ [] → (∀ piece ∈ left, piece ≠ []) →
      ∃ hist', Run.Reach step Alone {} hist' (s.done t sd.frame left.flatten) := by
  induction left with
  | nil => exact fun _ _ _ _ hne => absurd rfl hne
  | cons piece left ih =>
    intro hist s sd hreach htorn honly hleft _ hpieces
    obtain ⟨hpiece, hrest⟩ := List.forall_mem_cons.mp hpieces
    have hfree : (s.put t (some sd)).Free t := by
      refine ⟨htorn, fun u hu ⟨x, hx, _⟩ => ?_⟩
      rw [s.sending_put_of_ne _ hu, honly u hu] at hx
      exact absurd hx (by simp)
    -- the whole piece at once
    have hsend : sd.send piece.length =
        some (piece, { sd with written := sd.written ++ piece, left := left }) := by
      rw [Sending.send, hleft]
      dsimp only
      rw [if_pos ⟨List.length_pos_iff.mpr hpiece, le_rfl⟩, if_pos rfl, List.take_length]
    have hstep : step (s.put t (some sd)) (.send t piece.length) =
        some (if left = [] then s.done t sd.frame piece else
          { s with stream := s.stream ++ piece }.put t
            (some { sd with written := sd.written ++ piece, left := left })) := by
      rw [step, s.sending_put_self]
      dsimp only
      rw [hsend, Option.map_some]
      dsimp only [Wire.put, Wire.done]
      simp only [Function.update_idem]
    have halone : Alone hist (s.put t (some sd)) (.send t piece.length) := hfree
    have hnext := hreach.next halone hstep
    by_cases hlast : left = []
    · rw [if_pos hlast] at hnext
      rw [hlast, List.flatten_singleton]
      exact ⟨_, hnext⟩
    · rw [if_neg hlast] at hnext
      obtain ⟨hist', hreach'⟩ := ih hnext htorn honly rfl hlast hrest
      refine ⟨hist', ?_⟩
      rw [List.flatten_cons]
      rwa [Wire.done, List.append_assoc] at hreach'

/-- **A call whose thread is alone sends its frame.** -/
theorem exists_call {hist : Run.History Wire Event} (h : Run.Reach step Alone {} hist s)
    (htorn : s.torn = false) (hidle : ∀ u, s.sending u = none) {c : Call} {sd : Sending}
    (hstart : c.start = some sd) (t : ℕ) :
    ∃ hist', Run.Reach step Alone {} hist' (s.done t sd.frame sd.frame.bytes) := by
  obtain ⟨hsound, hwritten, hleft⟩ := Sending.Sound.of_start hstart
  have hcall : step s (.call t c) = some (s.put t (some sd)) := by rw [step, hidle t, hstart]
  have halone : Alone hist s (.call t c) := trivial
  have hbytes := hsound.bytes
  rw [hwritten, List.nil_append] at hbytes
  rw [← hbytes]
  exact exists_sent (h.next halone hcall) htorn (fun u _ => hidle u) rfl hleft hsound.pieces

/-- The dispatcher sends an event, and then the receiver a heartbeat. -/
theorem whole_one_by_one : ∃ hist s, Run.Reach step Alone {} hist s ∧ s.sent.length = 2 ∧ s.Whole := by
  have hidle : ∀ (f : Sent) (bytes : List UInt8) u, (Wire.done {} 0 f bytes).sending u = none :=
    fun _ _ u => congrFun (Function.update_eq_self 0 fun _ => none) u
  obtain ⟨event, hevent⟩ : ∃ sd, Call.start ⟨.event 0 1 [0x61], 1, 2, 0⟩ = some sd := ⟨_, rfl⟩
  obtain ⟨beat, hbeat⟩ : ∃ sd, heartbeat.start = some sd := ⟨_, rfl⟩
  obtain ⟨_, h⟩ := exists_call .start rfl (fun _ => rfl) hevent 0
  obtain ⟨_, h'⟩ := exists_call h rfl (hidle _ _) hbeat 1
  exact ⟨_, _, h', rfl, whole_of_alone h'⟩

/-- **Two threads that send a heartbeat each**, and each writes the length before either of them writes
the header: both calls succeed, and the gateway reads no frame. -/
theorem heartbeats_torn : ∃ hist s, Run.Reach step Run.Any {} hist s ∧ s.Quiet ∧ s.sent.length = 2 ∧
    ¬s.Whole := by
  obtain ⟨hist, s, hreplay, htorn, hsending, hsent, hread⟩ : ∃ hist s,
      Run.replay step [] {} [.call 0 heartbeat, .call 1 heartbeat, .send 0 4, .send 1 4, .send 0 32,
        .send 1 32] = some (hist, s) ∧ s.torn = false ∧ (∀ t, s.sending t = none) ∧ s.sent.length = 2 ∧
      (finder ({} : BufferConfig).maxSize).find s.stream = .stop none := by
    refine ⟨_, _, rfl, rfl, ?_, rfl, rfl⟩
    rintro (_ | _ | t) <;> rfl
  refine ⟨hist, s, Run.Reach.start.replay hreplay, ⟨htorn, fun t ⟨x, hx, _⟩ => ?_⟩, hsent, ?_⟩
  · rw [hsending t] at hx
    exact absurd hx (by simp)
  · -- the magic is not where the gateway looks for it
    rintro ⟨frames, part, -, -, hreads, -⟩
    exact absurd (hreads.unique (.stop hread)).2 (by simp)

end Agent

end Xsiam
