import Xsiam.Gateway.Parsing
import Xsiam.Lib.Scan

/-!
# Offsets into a body

`process_event_batch` and `process_hello` once more, as they work on the body: with an offset of 32
bits that moves over it, with lengths of 16 bits, and with the encoder that all connections share and
that is filled event by event. The offset is asked about before it moves, and since the header of a
frame allows no body of more than `WZCP_MAX_FRAME` bytes, no sum wraps around; so the handlers do what
they do in `Xsiam.Gateway.process`, and never look behind the body
(`Xsiam.Gateway.Offsets.processEventBatch_eq`, `Xsiam.Gateway.Offsets.processHello_eq`).

With what a body holds (`Xsiam.Gateway.HoldsBatch`, `Xsiam.Gateway.HoldsHello`) this makes the two
handlers exact, and all or nothing (`Xsiam.Gateway.parsing_exact`).
-/

namespace Xsiam

namespace Gateway

open Go (str)

namespace Offsets

open Scan

/-! ### Handlers -/

/-- `get_be16` -/
def getBe16 (body : List UInt8) (off : UInt32) : UInt16 := UInt16.ofNat (beAt body off.toNat 2)

/-- `get_be64` -/
def getBe64 (body : List UInt8) (off : UInt32) : UInt64 := UInt64.ofNat (beAt body off.toNat 8)

/-- `read_string` -/
def readString {σ : Type} (body : List UInt8) (bodyLen : UInt32) (outSize : ℕ) : Scan σ CString := do
  let off ← offset
  if off + 2 > bodyLen ∨ outSize = 0 then fail
  else
    let len := getBe16 body off
    advance 2
    let off ← offset
    if off + len.toUInt32 > bodyLen ∨ len.toNat ≥ outSize then fail
    else
      let out := cString ((body.drop off.toNat).take len.toNat)
      advance len.toUInt32
      pure out

/-- The loop of `process_hello`. -/
def readMacs (body : List UInt8) (bodyLen : UInt32) : ℕ → Scan Unit (List CString)
  | 0 => pure []
  | n + 1 => do
    let mac ← readString body bodyLen 32
    let macs ← readMacs body bodyLen n
    pure (mac :: macs)

/-- What `process_hello` reads behind the schema version. -/
def readFields (body : List UInt8) (bodyLen : UInt32) (schemaVersion : UInt16) : Scan Unit Hello := do
  let agentID ← readString body bodyLen 128
  let agentName ← readString body bodyLen 256
  let agentVersion ← readString body bodyLen 64
  if schemaVersion ≥ 2 then
    let hostType ← readString body bodyLen 16
    let off ← offset
    if off + 2 > bodyLen then fail
    else
      let macCount := getBe16 body off
      advance 2
      let macs ← readMacs body bodyLen macCount.toNat
      pure ⟨agentID, agentName, agentVersion, hostType, some (macAddressesJSON macs)⟩
  else pure ⟨agentID, agentName, agentVersion, [], none⟩

/-- `process_hello`, with the offsets that it was at -/
def processHello (cfg : Config) (s : State) (c : ℕ) (f : Frame) (ans : Answers) :
    (State × Bool) × List UInt32 :=
  let bodyLen := UInt32.ofNat f.body.length
  if bodyLen < 4 then ((s, false), [])
  else if getBe16 f.body 0 < 1 then ((s, false), [])
  else
    match readFields f.body bodyLen (getBe16 f.body 0) { off := 4, own := () } with
    | (none, cur) => ((s, false), cur.offsets)
    | (some hello, cur) =>
      let bind (conn : Conn) : Conn :=
        if hello.agentID = [] then conn else { conn with agentKey := some hello.agentID }
      let s := (s.mark (markSeen cfg s.now s.agents hello)).setConn c fun conn =>
        (bind conn).classify (str "agent_wzcp") (str "agent")
      (s.sendAck c f.seq ans, cur.offsets)

/-- `append_record`, to the encoder -/
def appendRecord (encoded : Bool) (r : LogRecord) : Scan (List LogRecord) Unit :=
  if encoded = false then fail else modify (· ++ [r])

/-- The loop of `process_event_batch`, from its round `i` on. -/
def eventLoop (body : List UInt8) (bodyLen : UInt32) (record : EventRecord → LogRecord)
    (encode : ℕ → Bool) : ℕ → ℕ → Scan (List LogRecord) Unit
  | 0, _ => pure ()
  | n + 1, i => do
    let off ← offset
    if off + 20 > bodyLen then fail
    else
      let kind := body.getD off.toNat 0
      let eventID := getBe64 body (off + 10)
      let payloadLen := getBe16 body (off + 18)
      advance 20
      let off ← offset
      if off + payloadLen.toUInt32 > bodyLen then fail
      else
        let payload := (body.drop off.toNat).take payloadLen.toNat
        appendRecord (encode i) (record ⟨kind, eventID.toNat, payload⟩)
        advance payloadLen.toUInt32
        eventLoop body bodyLen record encode n (i + 1)

/-- `process_event_batch`, with the offsets that it was at. All connections share one encoder, and
`left` is what it still holds of a batch before. -/
def processEventBatch (s : State) (c : ℕ) (conn : Conn) (f : Frame) (ans : Answers)
    (left : List LogRecord) : (State × Bool) × List UInt32 :=
  let bodyLen := UInt32.ofNat f.body.length
  if bodyLen < 2 then ((s, false), [])
  else
    let count := getBe16 f.body 0
    let handler := do
      modify fun _ => []
      eventLoop f.body bodyLen (eventLogRecord c conn f) ans.encode count.toNat 0
    match handler { off := 2, own := left } with
    | (none, cur) => ((s, false), cur.offsets)
    | (some (), cur) => ((s.hand cur.own).sendAck c f.seq ans, cur.offsets)

/-! ### What the handlers read -/

section Specs

variable {σ : Type} {body : List UInt8} {o : UInt32} {w : σ}

theorem toNat_getBe16 (h : o.toNat + 2 ≤ body.length) :
    (getBe16 body o).toNat = beAt body o.toNat 2 :=
  UInt16.toNat_ofNat_of_lt' (beAt_lt h)

theorem toNat_getBe64 (h : o.toNat + 8 ≤ body.length) :
    (getBe64 body o).toNat = beAt body o.toNat 8 :=
  UInt64.toNat_ofNat_of_lt' (beAt_lt h)

/-- A body that the header of a frame allows. -/
theorem toNat_bodyLen (hbody : body.length ≤ wzcpMaxFrame) :
    (UInt32.ofNat body.length).toNat = body.length := by
  have hmax : wzcpMaxFrame < UInt32.size := by decide
  exact UInt32.toNat_ofNat_of_lt' (hbody.trans_lt hmax)

/-- **A string is read at an offset of 32 bits as it is at a number.** -/
theorem readString_spec (hbody : body.length ≤ wzcpMaxFrame) (outSize : ℕ) :
    Triple (At body.length o w) (readString body (UInt32.ofNat body.length) outSize)
      (fun s c => ∃ o', Gateway.readString body o.toNat outSize = some (s, o'.toNat) ∧
        At body.length o' w c)
      (fun c => Gateway.readString body o.toNat outSize = none ∧ Inside body.length c) := by
  have hlen := toNat_bodyLen hbody
  rw [wzcpMaxFrame] at hbody
  rw [Gateway.readString]
  refine triple_offset (triple_ask (k := 2) hlen rfl (by omega) (fun hshort c hc => ?_)
    fun hlong hoff => ?_)
  · exact ⟨if_pos hshort, hc⟩
  rw [if_neg hlong]
  rw [not_or, Nat.not_lt] at hlong
  have hword := toNat_getBe16 hlong.1
  have hsmall := (getBe16 body o).toNat_lt
  -- the length is read, and the string is asked for
  refine triple_advance (by omega) (triple_offset ?_)
  refine triple_ask hlen (UInt16.toNat_toUInt32 _) (by omega) (fun hshort c hc => ?_) fun hroom hnext => ?_
  · rw [hoff, hword] at hshort
    exact ⟨if_pos hshort, hc⟩
  rw [hoff, hword] at hroom hnext
  dsimp only
  rw [if_neg hroom]
  rw [not_or, Nat.not_lt] at hroom
  refine triple_advance (by omega) (triple_pure fun c hc => ⟨_, ?_, hc⟩)
  rw [hnext, hoff, hword]

/-- A reader yields what is read without it, or fails where that cannot be read; and it stays inside the
body. -/
def Follows {α : Type} (body : List UInt8) (o : UInt32) (w : σ) (p : Scan σ α) (r : Option α) : Prop :=
  Triple (At body.length o w) p (fun a c => r = some a ∧ Inside body.length c)
    (fun c => r = none ∧ Inside body.length c)

theorem follows_pure {α : Type} (a : α) : Follows body o w (pure a : Scan σ α) (some a) :=
  triple_pure fun _ hc => ⟨rfl, hc.inside⟩

theorem Follows.map {α β : Type} {p : Scan σ α} {r : Option α} (h : Follows body o w p r) (g : α → β) :
    Follows body o w (p >>= fun a => pure (g a)) (r.map g) := by
  refine Triple.bind (h.mono (fun _ _ hc => hc) fun c hc => ?_) fun a => ?_
  · rw [hc.1]
    exact ⟨rfl, hc.2⟩
  · refine triple_and fun ha => triple_pure fun c hc => ?_
    rw [ha]
    exact ⟨rfl, hc⟩

/-- A string is read, and then something else. -/
theorem follows_readString {α : Type} (hbody : body.length ≤ wzcpMaxFrame) {outSize : ℕ}
    {f : CString → Scan σ α} {r : Option α}
    (hnone : Gateway.readString body o.toNat outSize = none → r = none)
    (hsome : ∀ s o', Gateway.readString body o.toNat outSize = some (s, o'.toNat) →
      Follows body o' w (f s) r) :
    Follows body o w (readString body (UInt32.ofNat body.length) outSize >>= f) r := by
  refine Triple.bind ((readString_spec hbody outSize).mono (fun _ _ hc => hc) fun c hc => ?_) fun s => ?_
  · exact ⟨hnone hc.1, hc.2⟩
  · exact triple_exists fun o' => triple_and fun hread => hsome s o' hread

/-- The addresses are read as they are without the offset. -/
theorem readMacs_spec (hbody : body.length ≤ wzcpMaxFrame) (n : ℕ) : ∀ {o : UInt32},
    Follows body o () (readMacs body (UInt32.ofNat body.length) n)
      (Gateway.readMacs n body o.toNat) := by
  induction n with
  | zero => exact follows_pure []
  | succ n ih =>
    intro o
    rw [Gateway.readMacs]
    refine follows_readString hbody (fun hread => by rw [hread]) fun mac o' hread => ?_
    rw [hread]
    exact ih.map (mac :: ·)

/-- **What `process_hello` reads is the HELLO that is parsed**, and it stays inside the body. -/
theorem readFields_spec (hbody : body.length ≤ wzcpMaxFrame) (hshort : ¬body.length < 4)
    (hversion : ¬beAt body 0 2 < 1) :
    Follows body 4 () (readFields body (UInt32.ofNat body.length) (getBe16 body 0))
      (parseHello body) := by
  have hlen := toNat_bodyLen hbody
  have hword : (getBe16 body 0).toNat = beAt body 0 2 :=
    toNat_getBe16 (o := 0) (by rw [UInt32.toNat_zero]; omega)
  have hsecond_iff : getBe16 body 0 ≥ 2 ↔ 2 ≤ beAt body 0 2 := by
    rw [ge_iff_le, UInt16.le_iff_toNat_le, hword]
    rfl
  have hfour : 4 = (4 : UInt32).toNat := rfl
  rw [parseHello, if_neg hshort, if_neg hversion, hfour]
  refine follows_readString hbody (fun hread => by rw [hread]) fun agentID o₁ hread₁ => ?_
  rw [hread₁]
  refine follows_readString hbody (fun hread => by dsimp only; rw [hread]) fun agentName o₂ hread₂ => ?_
  dsimp only
  rw [hread₂]
  refine follows_readString hbody (fun hread => by dsimp only; rw [hread]) fun agentVersion o₃ hread₃ => ?_
  dsimp only
  rw [hread₃]
  dsimp only
  rw [readHost]
  by_cases hsecond : 2 ≤ beAt body 0 2
  swap
  · rw [if_neg hsecond, if_neg (mt hsecond_iff.mp hsecond)]
    exact follows_pure _
  rw [if_pos hsecond, if_pos (hsecond_iff.mpr hsecond)]
  refine follows_readString hbody (fun hread => by rw [hread]; rfl) fun hostType o₄ hread₄ => ?_
  rw [hread₄]
  dsimp only
  rw [wzcpMaxFrame] at hbody
  refine triple_offset (triple_ask_item (k := 2) hlen rfl (by omega) (fun hshort c hc => ?_)
    fun hlong hoff => ?_)
  · rw [if_pos hshort]
    exact ⟨rfl, hc⟩
  rw [if_neg hlong]
  rw [Nat.not_lt] at hlong
  refine triple_advance (by omega) ?_
  rw [toNat_getBe16 hlong, ← hoff, Option.map_map]
  exact (readMacs_spec hbody _).map _

theorem triple_appendRecord {α : Type} {len : ℕ} {w : List LogRecord} {encoded : Bool} {r : LogRecord}
    {f : Unit → Scan (List LogRecord) α} {Q : α → Cursor (List LogRecord) → Prop}
    {E : Cursor (List LogRecord) → Prop} (hfail : encoded = false → ∀ c, At len o w c → E c)
    (hgo : encoded = true → Triple (At len o (w ++ [r])) (f ()) Q E) :
    Triple (At len o w) (appendRecord encoded r >>= f) Q E := by
  cases encoded with
  | false => exact hfail rfl
  | true => exact triple_modify (g := (· ++ [r])) (hgo rfl)

/-- **What the loop of `process_event_batch` encodes are the events that are read**, unless one of
them cannot be encoded. -/
theorem eventLoop_spec (hbody : body.length ≤ wzcpMaxFrame) (record : EventRecord → LogRecord)
    (encode : ℕ → Bool) (n : ℕ) : ∀ {o : UInt32} {w : List LogRecord} {i : ℕ},
    Triple (At body.length o w) (eventLoop body (UInt32.ofNat body.length) record encode n i)
      (fun _ c => ∃ events, readEvents n body o.toNat = some events ∧
        (List.range' i n).all encode = true ∧ c.own = w ++ events.map record ∧ Inside body.length c)
      (fun c => (readEvents n body o.toNat = none ∨ (List.range' i n).all encode = false) ∧
        Inside body.length c) := by
  have hlen := toNat_bodyLen hbody
  induction n with
  | zero =>
    intro o w i
    refine triple_pure fun c hc => ⟨[], rfl, rfl, ?_, hc.inside⟩
    rw [hc.own_eq, List.map_nil, List.append_nil]
  | succ n ih =>
    intro o w i
    rw [wzcpMaxFrame] at hbody
    rw [readEvents, List.range'_succ, List.all_cons]
    refine triple_offset (triple_ask_item (k := 20) hlen rfl (by omega) (fun hshort c hc => ?_)
      fun hlong hoff => ?_)
    · exact ⟨.inl (if_pos hshort), hc⟩
    rw [if_neg hlong]
    rw [Nat.not_lt] at hlong
    -- the offsets within the header of an event are not behind it
    have hten : (o + 10).toNat = o.toNat + 10 := toNat_add_of_lt rfl (by omega)
    have heighteen : (o + 18).toNat = o.toNat + 18 := toNat_add_of_lt rfl (by omega)
    have hid : (getBe64 body (o + 10)).toNat = beAt body (o.toNat + 10) 8 := by
      rw [toNat_getBe64 (by omega), hten]
    have hword : (getBe16 body (o + 18)).toNat = beAt body (o.toNat + 18) 2 := by
      rw [toNat_getBe16 (by omega), heighteen]
    have hsmall := (getBe16 body (o + 18)).toNat_lt
    refine triple_advance (by omega) (triple_offset ?_)
    refine triple_ask_item hlen (UInt16.toNat_toUInt32 _) (by omega) (fun hshort c hc => ?_)
      fun hroom hnext => ?_
    · rw [hoff, hword] at hshort
      exact ⟨.inl (if_pos hshort), hc⟩
    rw [hoff, hword] at hroom hnext
    dsimp only
    rw [if_neg hroom, hid, hword, hoff]
    rw [Nat.not_lt] at hroom
    -- an event is encoded before the offset moves behind its payload
    refine triple_appendRecord (fun hencode c hc => ?_) fun hencode => ?_
    · rw [hencode]
      exact ⟨.inr rfl, hc.inside⟩
    refine triple_advance (by omega) (ih.mono (fun _ c hc => ?_) fun c hc => ?_)
    · obtain ⟨events, hread, hall, hown, hinside⟩ := hc
      rw [hnext] at hread
      rw [hread, hencode, hall]
      refine ⟨_, rfl, rfl, ?_, hinside⟩
      rw [hown, List.map_cons, List.append_assoc, List.singleton_append]
    · obtain ⟨hnone, hinside⟩ := hc
      rw [hnext] at hnone
      rw [hencode, Bool.true_and]
      refine ⟨hnone.imp_left fun h => ?_, hinside⟩
      rw [h]
      rfl

end Specs

/-! ### The handlers -/

section Handlers

variable {cfg : Config} {s : State} {c : ℕ} {conn : Conn} {f : Frame} {ans : Answers}

/-- A frame whose header was accepted has a body that is not too long. -/
theorem length_le_of_frameAt {bs : List UInt8} (h : frameAt bs = some f) :
    f.body.length ≤ wzcpMaxFrame := by
  rw [frameAt, unpackHeader] at h
  split_ifs at h with hheader
  dsimp only at h
  split_ifs at h with hlen
  obtain rfl := Option.some.inj h
  simp only [not_or, Nat.not_lt] at hheader
  exact (List.length_take_le _ _).trans hheader.2.2.2

/-- A cursor at the first item of a body. -/
theorem at_start {σ : Type} {len : ℕ} {o : UInt32} (w : σ) (h : o.toNat ≤ len) :
    At len o w { off := o, own := w } :=
  ⟨rfl, rfl, fun _ ho' => List.mem_singleton.mp ho' ▸ h⟩

/-- **With an offset of 32 bits a batch is handled as it is without**, whatever the encoder still
holds, and no offset is behind the body. -/
theorem processEventBatch_eq (hbody : f.body.length ≤ wzcpMaxFrame) (left : List LogRecord) :
    (processEventBatch s c conn f ans left).1 = Gateway.processEventBatch s c conn f ans ∧
      ∀ o ∈ (processEventBatch s c conn f ans left).2, o.toNat ≤ f.body.length := by
  have hlen := toNat_bodyLen hbody
  have htwo : (2 : UInt32).toNat = 2 := rfl
  have hshort_iff : UInt32.ofNat f.body.length < 2 ↔ f.body.length < 2 := by
    rw [UInt32.lt_iff_toNat_lt, hlen, htwo]
  rw [processEventBatch, Gateway.processEventBatch, parseEventBatch]
  dsimp only
  by_cases hshort : f.body.length < 2
  · rw [if_pos hshort, if_pos (hshort_iff.mpr hshort)]
    exact ⟨rfl, fun o ho => absurd ho List.not_mem_nil⟩
  rw [if_neg hshort, if_neg (mt hshort_iff.mp hshort)]
  have hcount : (getBe16 f.body 0).toNat = beAt f.body 0 2 :=
    toNat_getBe16 (o := 0) (by rw [UInt32.toNat_zero]; omega)
  have hstart : (2 : UInt32).toNat ≤ f.body.length := by omega
  have hloop := triple_modify (w := left) (g := fun _ => []) (f := fun _ => eventLoop f.body
    (UInt32.ofNat f.body.length) (eventLogRecord c conn f) ans.encode (beAt f.body 0 2) 0)
      (eventLoop_spec hbody _ _ _ (o := 2)) _ (at_start left hstart)
  rw [hcount]
  rw [← List.range_eq_range', htwo] at hloop
  generalize (modify _ >>= _) _ = r at hloop ⊢
  have hencodes : ∀ {events}, readEvents (beAt f.body 0 2) f.body 2 = some events →
      ans.encodes events.length = (List.range (beAt f.body 0 2)).all ans.encode := by
    intro events hread
    rw [Answers.encodes, ((readEvents_iff (by omega)).mp hread).1]
  rcases r with ⟨_ | ⟨⟩, cur⟩
  · -- a batch that cannot be read, or that holds an event that cannot be encoded
    obtain ⟨hnone, hinside⟩ := hloop
    refine ⟨?_, hinside⟩
    rcases hread : readEvents (beAt f.body 0 2) f.body 2 with _ | events
    · rfl
    · rw [hread] at hnone
      rcases hnone with hnone | hnone
      · exact absurd hnone (Option.some_ne_none events)
      · dsimp only
        rw [hencodes hread, hnone, if_neg Bool.false_ne_true]
  · obtain ⟨events, hread, hall, hown, hinside⟩ := hloop
    refine ⟨?_, hinside⟩
    rw [hread]
    dsimp only
    rw [hencodes hread, if_pos hall, hown, List.nil_append]

/-- The same for a HELLO. -/
theorem processHello_eq (hbody : f.body.length ≤ wzcpMaxFrame) :
    (processHello cfg s c f ans).1 = Gateway.processHello cfg s c f ans ∧
      ∀ o ∈ (processHello cfg s c f ans).2, o.toNat ≤ f.body.length := by
  have hlen := toNat_bodyLen hbody
  have hfour : (4 : UInt32).toNat = 4 := rfl
  have hshort_iff : UInt32.ofNat f.body.length < 4 ↔ f.body.length < 4 := by
    rw [UInt32.lt_iff_toNat_lt, hlen, hfour]
  rw [processHello, Gateway.processHello]
  dsimp only
  by_cases hshort : f.body.length < 4
  · rw [if_pos (hshort_iff.mpr hshort), parseHello, if_pos hshort]
    exact ⟨rfl, fun o ho => absurd ho List.not_mem_nil⟩
  rw [if_neg (mt hshort_iff.mp hshort)]
  have hword : (getBe16 f.body 0).toNat = beAt f.body 0 2 :=
    toNat_getBe16 (o := 0) (by rw [UInt32.toNat_zero]; omega)
  have hversion_iff : getBe16 f.body 0 < 1 ↔ beAt f.body 0 2 < 1 := by
    rw [UInt16.lt_iff_toNat_lt, hword]
    rfl
  by_cases hversion : beAt f.body 0 2 < 1
  · rw [if_pos (hversion_iff.mpr hversion), parseHello, if_neg hshort, if_pos hversion]
    exact ⟨rfl, fun o ho => absurd ho List.not_mem_nil⟩
  rw [if_neg (mt hversion_iff.mp hversion)]
  have hstart : (4 : UInt32).toNat ≤ f.body.length := by omega
  have hfields := readFields_spec hbody hshort hversion _ (at_start () hstart)
  generalize readFields _ _ _ _ = r at hfields ⊢
  rcases r with ⟨_ | hello, cur⟩
  · rw [hfields.1]
    exact ⟨rfl, hfields.2⟩
  · rw [hfields.1]
    exact ⟨rfl, hfields.2⟩

end Handlers

end Offsets

/-! ### Exactness -/

section Exact

variable (cfg : Config) (s : State) (c : ℕ) (conn : Conn) (f : Frame) (ans : Answers)
  (left : List LogRecord)

/-- **A batch is handled as a whole or not at all**: as a whole if the body holds one and everything
goes well, and then the engine is handed a record of each of its events. -/
structure BatchExact (after : (State × Bool) × List UInt32) : Prop where
  succeeds : after.1.2 = true ↔
    (∃ events, HoldsBatch events f.body ∧ ans.encodes events.length = true) ∧ ans.ack = true
  hands : ∀ events, HoldsBatch events f.body → ans.encodes events.length = true →
    after.1 = (s.hand (events.map (eventLogRecord c conn f))).sendAck c f.seq ans
  refuses : (¬∃ events, HoldsBatch events f.body) → after.1 = (s, false)
  inside : ∀ o ∈ after.2, o.toNat ≤ f.body.length

/-- **A HELLO is accepted exactly if the body holds one**, and then the agent is marked as seen with
what it holds. -/
structure HelloExact (after : (State × Bool) × List UInt32) : Prop where
  succeeds : after.1.2 = true ↔ (∃ h, HoldsHello h f.body) ∧ ans.ack = true
  marks : ∀ h, HoldsHello h f.body → after.1.1.agents = (markSeen cfg s.now s.agents h.read).1
  refuses : (¬∃ h, HoldsHello h f.body) → after.1 = (s, false)
  inside : ∀ o ∈ after.2, o.toNat ≤ f.body.length

end Exact

section Exact

variable {cfg : Config} {s : State} {c : ℕ} {conn : Conn} {f : Frame} {ans : Answers}

theorem sendAck_snd (s : State) (c : ℕ) (seq : UInt64) (ans : Answers) :
    (s.sendAck c seq ans).2 = ans.ack := by
  rw [State.sendAck]
  cases ans.ack <;> rfl

theorem sendAck_agents (s : State) (c : ℕ) (seq : UInt64) (ans : Answers) :
    (s.sendAck c seq ans).1.agents = s.agents := by
  rw [State.sendAck]
  split_ifs <;> rfl

theorem not_holdsBatch {body : List UInt8} (h : ¬∃ events, HoldsBatch events body) :
    parseEventBatch body = none := by
  rcases hparse : parseEventBatch body with _ | events
  · rfl
  · exact absurd ⟨events, parseEventBatch_iff.mp hparse⟩ h

theorem not_holdsHello {body : List UInt8} (h : ¬∃ h, HoldsHello h body) : parseHello body = none := by
  rcases hparse : parseHello body with _ | hello
  · rfl
  · obtain ⟨fields, hholds, -⟩ := parseHello_iff.mp hparse
    exact absurd ⟨fields, hholds⟩ h

theorem batchExact (s : State) (c : ℕ) (conn : Conn) (ans : Answers) (left : List LogRecord)
    (hbody : f.body.length ≤ wzcpMaxFrame) :
    BatchExact s c conn f ans (Offsets.processEventBatch s c conn f ans left) := by
  obtain ⟨hsame, hinside⟩ := @Offsets.processEventBatch_eq s c conn f ans hbody left
  have hhands : ∀ events, HoldsBatch events f.body → ans.encodes events.length = true →
      processEventBatch s c conn f ans =
        (s.hand (events.map (eventLogRecord c conn f))).sendAck c f.seq ans := by
    intro events hholds hencodes
    rw [processEventBatch, parseEventBatch_iff.mpr hholds]
    dsimp only
    rw [if_pos hencodes]
  have hrefuses : (¬∃ events, HoldsBatch events f.body) →
      processEventBatch s c conn f ans = (s, false) := by
    intro hnone
    rw [processEventBatch, not_holdsBatch hnone]
  refine ⟨?_, fun events hholds hencodes => hsame.trans (hhands events hholds hencodes),
    fun hnone => hsame.trans (hrefuses hnone), hinside⟩
  rw [hsame]
  constructor
  · intro hsucceeds
    by_cases hholds : ∃ events, HoldsBatch events f.body
    · obtain ⟨events, hholds⟩ := hholds
      by_cases hencodes : ans.encodes events.length = true
      · rw [hhands events hholds hencodes, sendAck_snd] at hsucceeds
        exact ⟨⟨events, hholds, hencodes⟩, hsucceeds⟩
      · rw [processEventBatch, parseEventBatch_iff.mpr hholds] at hsucceeds
        dsimp only at hsucceeds
        rw [if_neg hencodes] at hsucceeds
        exact absurd hsucceeds Bool.false_ne_true
    · rw [hrefuses hholds] at hsucceeds
      exact absurd hsucceeds Bool.false_ne_true
  · rintro ⟨⟨events, hholds, hencodes⟩, hack⟩
    rw [hhands events hholds hencodes, sendAck_snd, hack]

theorem helloExact (cfg : Config) (s : State) (c : ℕ) (ans : Answers)
    (hbody : f.body.length ≤ wzcpMaxFrame) :
    HelloExact cfg s f ans (Offsets.processHello cfg s c f ans) := by
  obtain ⟨hsame, hinside⟩ := @Offsets.processHello_eq cfg s c f ans hbody
  have hrefuses : (¬∃ h, HoldsHello h f.body) → processHello cfg s c f ans = (s, false) := by
    intro hnone
    rw [processHello, not_holdsHello hnone]
  refine ⟨?_, fun h hholds => ?_, fun hnone => hsame.trans (hrefuses hnone), hinside⟩
  · rw [hsame]
    by_cases hholds : ∃ h, HoldsHello h f.body
    · obtain ⟨h, hholds⟩ := hholds
      rw [processHello, parseHello_of_holds hholds]
      dsimp only
      rw [sendAck_snd, and_iff_right ⟨h, hholds⟩]
    · rw [hrefuses hholds]
      exact iff_of_false Bool.false_ne_true fun h => hholds h.1
  · rw [hsame, processHello, parseHello_of_holds hholds]
    dsimp only
    rw [sendAck_agents]
    rfl

end Exact

/-- **The parsing of batches and of HELLOs is exact**, for every body that the header of a frame
allows, and whatever the encoder still holds. -/
theorem parsing_exact (cfg : Config) (s : State) (c : ℕ) (conn : Conn) (f : Frame) (ans : Answers)
    (left : List LogRecord) (hbody : f.body.length ≤ wzcpMaxFrame) :
    BatchExact s c conn f ans (Offsets.processEventBatch s c conn f ans left) ∧
      HelloExact cfg s f ans (Offsets.processHello cfg s c f ans) :=
  ⟨batchExact s c conn ans left hbody, helloExact cfg s c ans hbody⟩

/-- A batch of one event without a payload. -/
def zeroEvent : Frame :=
  { msgType := wzcpMsgEventBatch, seq := 7, body := [0, 1] ++ List.replicate 20 0 }

/-- Its handler was at three offsets. -/
theorem parsing_exact_zeroEvent :
    (Offsets.processEventBatch (.init 0) 0 {} zeroEvent {} []).2 = [22, 22, 2] ∧
      BatchExact (.init 0) 0 {} zeroEvent {}
          (Offsets.processEventBatch (.init 0) 0 {} zeroEvent {} []) ∧
        HelloExact {} (.init 0) zeroEvent {} (Offsets.processHello {} (.init 0) 0 zeroEvent {}) := by
  have hbody : zeroEvent.body.length ≤ wzcpMaxFrame := by decide
  exact ⟨by decide, parsing_exact {} (.init 0) 0 {} zeroEvent {} [] hbody⟩

end Gateway

end Xsiam
