import Xsiam.Go.Text
import Xsiam.Lib.Codec

/-!
# Frame headers

`internal/ingest/frame.go`: a stream of the binary protocol is one frame after another, a
frame a header and a body. The header has a fixed part, a tag of up to 255 bytes in the
middle of it, and says at the end how long the body is.

Reader and writer of headers are exact (`Xsiam.Ingest.exact_header`): what is read is what
was written, nothing of the body is touched, and nothing else is accepted. The one thing
that is not carried is the field with the magic number: it is the same in all headers
that are written, whatever the field says (`Xsiam.Ingest.FrameHeader.onWire`).
-/

namespace Xsiam

namespace Ingest

open Go Codec

/-! ### Headers -/

/-- `Magic` -/
def magic : UInt32 := 0x584C4F47

/-- `Version` -/
def version : UInt8 := 1

/-- `TypeLogBatch` -/
def typeLogBatch : UInt8 := 0x01

/-- `TypeAck` -/
def typeAck : UInt8 := 0x02

/-- `fixedHeaderSize` -/
def fixedHeaderSize : ℕ := 36

/-- `FrameHeader` -/
structure FrameHeader where
  magic : UInt32
  version : UInt8
  type : UInt8
  flags : UInt8
  tag : GoString
  agentID : UInt64
  seq : UInt64
  tsMs : UInt64
  bodyLen : UInt32
  deriving DecidableEq

/-- How `io.ReadFull` fails at the end of the input. -/
inductive ReadFullError where
  | eof
  | unexpectedEOF
  deriving DecidableEq

/-- The error of a read that finds too little. -/
def readFullError (bs : GoString) : ReadFullError := if bs = [] then .eof else .unexpectedEOF

/-- The errors of `ReadHeader`. -/
inductive HeaderError where
  | readFixedHeader (cause : ReadFullError)
  | badMagic (got : UInt32)
  | readTag (cause : ReadFullError)
  | readHeaderTail (cause : ReadFullError)
  deriving DecidableEq

/-- `ReadHeader`, on the bytes that are still to come. -/
def readHeader (bs : GoString) : Except HeaderError (FrameHeader × GoString) :=
  match readFull 8 bs with
  | none => .error (.readFixedHeader (readFullError bs))
  | some (fixed, bs) =>
    let got := word32 (fixed.take 4)
    if got ≠ magic then .error (.badMagic got)
    else
      let tagLen := fixed.getD 7 0
      match readFull tagLen.toNat bs with
      | none => .error (.readTag (readFullError bs))
      | some (tag, bs) =>
        match readFull 28 bs with
        | none => .error (.readHeaderTail (readFullError bs))
        | some (tail, bs) =>
          .ok ({ magic := got
                 version := fixed.getD 4 0
                 type := fixed.getD 5 0
                 flags := fixed.getD 6 0
                 tag
                 agentID := word64 (tail.take 8)
                 seq := word64 ((tail.drop 8).take 8)
                 tsMs := word64 ((tail.drop 16).take 8)
                 bodyLen := word32 (tail.drop 24) }, bs)

/-- The tag of a header as it is written, cut to 255 bytes. -/
def wireTag (tag : GoString) : GoString := if 255 < tag.length then tag.take 255 else tag

/-- `WriteHeader`: the buffer, from its first byte to its last. -/
def writeHeader (hdr : FrameHeader) : GoString :=
  let tag := wireTag hdr.tag
  be32 magic ++ [hdr.version, hdr.type, hdr.flags, UInt8.ofNat tag.length] ++ tag ++
    (be64 hdr.agentID ++ be64 hdr.seq ++ be64 hdr.tsMs ++ be32 hdr.bodyLen)

/-! ### What is carried -/

theorem wireTag_of_le {tag : GoString} (h : tag.length ≤ 255) : wireTag tag = tag :=
  if_neg (by omega)

/-- A header as it is read back: with the magic number of the protocol. -/
def FrameHeader.onWire (hdr : FrameHeader) : FrameHeader := { hdr with magic := Ingest.magic }

/-- A header that the format can carry as it is. -/
structure FrameHeader.WellFormed (hdr : FrameHeader) : Prop where
  magic : hdr.magic = Ingest.magic
  tag : hdr.tag.length ≤ 255

theorem FrameHeader.wellFormed_onWire {hdr : FrameHeader} (h : hdr.tag.length ≤ 255) :
    hdr.onWire.WellFormed := ⟨rfl, h⟩

theorem writeHeader_onWire (hdr : FrameHeader) : writeHeader hdr.onWire = writeHeader hdr := rfl

/-- A header takes the fixed part and the tag. -/
theorem length_writeHeader (hdr : FrameHeader) :
    (writeHeader hdr).length = fixedHeaderSize + (wireTag hdr.tag).length := by
  simp only [writeHeader, List.length_append, length_be32, length_be64, List.length_cons,
    List.length_nil, fixedHeaderSize]
  omega

/-! ### Exactness -/

/-- The first half of the fixed part is a word, the second four single bytes. -/
theorem fixed_eq {fixed : GoString} (h : fixed.length = 8) :
    fixed = be32 (word32 (fixed.take 4)) ++
      [fixed.getD 4 0, fixed.getD 5 0, fixed.getD 6 0, fixed.getD 7 0] := by
  have htake : (fixed.take 4).length = 4 := by
    rw [List.length_take]
    omega
  have hdrop : fixed.drop 4 = [fixed.getD 4 0, fixed.getD 5 0, fixed.getD 6 0, fixed.getD 7 0] := by
    rcases fixed with _ | ⟨b₀, _ | ⟨b₁, _ | ⟨b₂, _ | ⟨b₃, rest⟩⟩⟩⟩ <;> simp at h
    obtain ⟨b₄, b₅, b₆, b₇, rfl⟩ : ∃ b₄ b₅ b₆ b₇, [b₄, b₅, b₆, b₇] = rest := by
      simpa [List.length_eq_succ_iff] using h
    rfl
  rw [be32_word32 htake, ← hdrop, List.take_append_drop]

/-- The part after the tag is four words. -/
theorem tail_eq {tail : GoString} (h : tail.length = 28) :
    tail = be64 (word64 (tail.take 8)) ++ be64 (word64 ((tail.drop 8).take 8)) ++
      be64 (word64 ((tail.drop 16).take 8)) ++ be32 (word32 (tail.drop 24)) := by
  rw [be64_word64 (by simp [h]), be64_word64 (by simp [h]), be64_word64 (by simp [h]),
    be32_word32 (by simp [h])]
  have h₂ : tail.drop 8 = (tail.drop 8).take 8 ++ tail.drop 16 := by
    rw [← List.drop_drop (i := 8) (j := 8), List.take_append_drop]
  have h₃ : tail.drop 16 = (tail.drop 16).take 8 ++ tail.drop 24 := by
    rw [← List.drop_drop (i := 8) (j := 16), List.take_append_drop]
  rw [List.append_assoc, List.append_assoc, ← h₃, ← h₂, List.take_append_drop]

/-- Four words after the tag, read back. -/
theorem readTail (agentID seq tsMs : UInt64) (bodyLen : UInt32) (rest : GoString) :
    let tail := be64 agentID ++ be64 seq ++ be64 tsMs ++ be32 bodyLen
    readFull 28 (tail ++ rest) = some (tail, rest) ∧
      word64 (tail.take 8) = agentID ∧ word64 ((tail.drop 8).take 8) = seq ∧
      word64 ((tail.drop 16).take 8) = tsMs ∧ word32 (tail.drop 24) = bodyLen := by
  refine ⟨readFull_eq_some.mpr ⟨by simp, rfl⟩, ?_, ?_, ?_, ?_⟩ <;>
    simp [List.drop_append, List.drop_of_length_le]

/-- **Headers are read as they were written**, nothing else is accepted, and what comes after
a header is left alone. -/
theorem exact_header : Exact FrameHeader.WellFormed writeHeader readHeader := by
  intro bs hdr rest
  constructor
  · intro hread
    rw [readHeader] at hread
    rcases hfixed : readFull 8 bs with _ | ⟨fixed, bs₁⟩
    · rw [hfixed] at hread
      exact absurd hread (by simp)
    obtain ⟨hlen, rfl⟩ := readFull_eq_some.mp hfixed
    rw [hfixed] at hread
    dsimp only at hread
    split_ifs at hread with hmagic
    rw [not_not] at hmagic
    rcases htag : readFull (fixed.getD 7 0).toNat bs₁ with _ | ⟨tag, bs₂⟩
    · rw [htag] at hread
      exact absurd hread (by simp)
    obtain ⟨htagLen, rfl⟩ := readFull_eq_some.mp htag
    rw [htag] at hread
    dsimp only at hread
    rcases htail : readFull 28 bs₂ with _ | ⟨tail, bs₃⟩
    · rw [htail] at hread
      exact absurd hread (by simp)
    obtain ⟨htailLen, rfl⟩ := readFull_eq_some.mp htail
    rw [htail] at hread
    obtain ⟨rfl, rfl⟩ := Prod.mk.inj (Except.ok.inj hread)
    have hle : tag.length ≤ 255 := by
      have hlt : (fixed.getD 7 0).toNat < 256 := UInt8.toNat_lt _
      omega
    refine ⟨⟨hmagic, hle⟩, ?_⟩
    have hbyte : UInt8.ofNat tag.length = fixed.getD 7 0 := by
      rw [htagLen, UInt8.ofNat_toNat]
    rw [writeHeader, wireTag_of_le hle, hbyte, ← hmagic, ← fixed_eq hlen, ← tail_eq htailLen]
    simp only [List.append_assoc]
  · rintro ⟨⟨hmagic, htag⟩, rfl⟩
    rw [writeHeader, wireTag_of_le htag, List.append_assoc, List.append_assoc, readHeader]
    have hbyte : (UInt8.ofNat hdr.tag.length).toNat = hdr.tag.length :=
      UInt8.toNat_ofNat_of_lt' (Nat.lt_succ_of_le htag)
    -- the fixed part, and what is read off it
    have hfixed : ∀ bs, readFull 8 (be32 Ingest.magic ++ [hdr.version, hdr.type, hdr.flags,
        UInt8.ofNat hdr.tag.length] ++ bs) = some (be32 Ingest.magic ++ [hdr.version, hdr.type,
          hdr.flags, UInt8.ofNat hdr.tag.length], bs) := fun bs =>
      readFull_eq_some.mpr ⟨rfl, rfl⟩
    have hfirst : (be32 Ingest.magic ++ [hdr.version, hdr.type, hdr.flags,
        UInt8.ofNat hdr.tag.length]).take 4 = be32 Ingest.magic := List.take_left' (length_be32 _)
    have hlast : (be32 Ingest.magic ++ [hdr.version, hdr.type, hdr.flags,
        UInt8.ofNat hdr.tag.length]).getD 7 0 = UInt8.ofNat hdr.tag.length := rfl
    rw [hfixed]
    dsimp only
    rw [hfirst, word32_be32, if_neg (not_not.mpr rfl), hlast, hbyte, readFull_append]
    dsimp only
    -- the tail, and what is read off it
    obtain ⟨htail, hagent, hseq, hts, hlen⟩ := readTail hdr.agentID hdr.seq hdr.tsMs hdr.bodyLen rest
    rw [htail]
    dsimp only
    rw [hagent, hseq, hts, hlen, ← hmagic]
    rfl

/-! ### Streams of frames -/

/-- The errors of a frame: those of its header, and a body that is cut off. -/
inductive FrameError where
  | header (err : HeaderError)
  | truncatedBody (cause : ReadFullError)
  deriving DecidableEq

/-- The body of a frame, as long as the header says. -/
def readBody (hdr : FrameHeader) (bs : GoString) : Except FrameError (GoString × GoString) :=
  match readFull hdr.bodyLen.toNat bs with
  | none => .error (.truncatedBody (readFullError bs))
  | some (body, bs) => .ok (body, bs)

theorem exact_body (hdr : FrameHeader) :
    Exact (fun body : GoString => body.length = hdr.bodyLen.toNat) (fun body => body)
      (readBody hdr) := by
  intro bs body rest
  rw [readBody, ← readFull_eq_some]
  rcases readFull hdr.bodyLen.toNat bs with _ | ⟨body', bs'⟩ <;> simp

/-- A header and its body. -/
def readFrame : GoString → Except FrameError ((FrameHeader × GoString) × GoString) :=
  thenRead (fun bs => (readHeader bs).mapError .header) readBody

theorem exact_frame :
    Exact (fun f : FrameHeader × GoString => f.1.WellFormed ∧ f.2.length = f.1.bodyLen.toNat)
      (fun f => writeHeader f.1 ++ f.2) readFrame :=
  (exact_header.mapError FrameError.header).andThen fun hdr _ => exact_body hdr

/-- The reader of a connection, frame after frame. -/
def frameReader : Reader UInt8 FrameError (FrameHeader × GoString) where
  run := readFrame
  shorter := by
    intro bs f rest h
    obtain ⟨-, rfl⟩ := (exact_frame _ _ _).mp h
    rw [List.length_append, List.length_append, length_writeHeader, fixedHeaderSize]
    omega

/-- Headers are read one after the other, and behind each a number of bytes passed over. -/
def readHeaders : List ℕ → GoString → Except HeaderError (List FrameHeader × GoString)
  | [], bs => .ok ([], bs)
  | n :: ns, bs =>
    match readHeader bs with
    | .error e => .error e
    | .ok (hdr, bs) => (readHeaders ns (bs.drop n)).map fun p => (hdr :: p.1, p.2)

theorem readHeaders_frames (frames : List (FrameHeader × GoString)) (rest : GoString)
    (h : ∀ f ∈ frames, f.1.tag.length ≤ 255) :
    readHeaders (frames.map (·.2.length)) (frames.flatMap (fun f => writeHeader f.1 ++ f.2) ++ rest) =
      .ok (frames.map (·.1.onWire), rest) := by
  induction frames with
  | nil => rfl
  | cons f frames ih =>
    obtain ⟨hf, hframes⟩ := List.forall_mem_cons.mp h
    have hread := exact_header.read_write (FrameHeader.wellFormed_onWire hf)
      (f.2 ++ (frames.flatMap (fun f => writeHeader f.1 ++ f.2) ++ rest))
    rw [writeHeader_onWire] at hread
    rw [List.flatMap_cons, List.map_cons, List.append_assoc, List.append_assoc, readHeaders, hread]
    dsimp only
    rw [List.drop_left, ih hframes]
    rfl

/-- **The header codec is faithful**, in both directions. A header comes back as it was
written, with the magic number of the protocol, and its reader stops at the body; so do the
headers of a stream of frames, whatever the bodies are; the frames themselves come back
where each header says how long its body is; and what is accepted is what is written. -/
theorem header_codec :
    (∀ (hdr : FrameHeader) (rest : GoString), hdr.tag.length ≤ 255 →
      readHeader (writeHeader hdr ++ rest) = .ok (hdr.onWire, rest) ∧
        (writeHeader hdr).length = fixedHeaderSize + hdr.tag.length) ∧
    (∀ (frames : List (FrameHeader × GoString)) (rest : GoString),
      (∀ f ∈ frames, f.1.tag.length ≤ 255) →
        readHeaders (frames.map (·.2.length))
            (frames.flatMap (fun f => writeHeader f.1 ++ f.2) ++ rest) =
          .ok (frames.map (·.1.onWire), rest)) ∧
    (∀ frames : List (FrameHeader × GoString),
      (∀ f ∈ frames, f.1.tag.length ≤ 255 ∧ f.2.length = f.1.bodyLen.toNat) →
        frameReader.readAll (frames.flatMap fun f => writeHeader f.1 ++ f.2) =
          .ok (frames.map fun f => (f.1.onWire, f.2))) ∧
    ∀ (bs : GoString) (hdr : FrameHeader) (rest : GoString),
      readHeader bs = .ok (hdr, rest) → hdr.tag.length ≤ 255 ∧ bs = writeHeader hdr ++ rest := by
  refine ⟨fun hdr rest htag => ⟨?_, ?_⟩, readHeaders_frames, fun frames h => ?_,
    fun bs hdr rest hread => ?_⟩
  · exact exact_header.read_write (FrameHeader.wellFormed_onWire htag) rest
  · rw [length_writeHeader, wireTag_of_le htag]
  · refine (Reader.readAll_eq_ok exact_frame).mpr ⟨fun f hf => ?_, ?_⟩
    · obtain ⟨f', hf', rfl⟩ := List.mem_map.mp hf
      exact ⟨FrameHeader.wellFormed_onWire (h f' hf').1, (h f' hf').2⟩
    · rw [List.flatMap_map]
      rfl
  · obtain ⟨hwf, hbs⟩ := (exact_header _ _ _).mp hread
    exact ⟨hwf.tag, hbs⟩

/-- A header without a magic number, as none is ever read. -/
def noMagic : FrameHeader := ⟨0, version, typeAck, 0, str "sysmon", 7, 1, 0, 0⟩

theorem header_codec_noMagic :
    readHeader (writeHeader noMagic ++ str "XLOG") = .ok ({ noMagic with magic }, str "XLOG") :=
  (header_codec.1 noMagic (str "XLOG") (by decide)).1

/-- The magic number a header says is not the one that is written. -/
theorem header_magic_lost :
    ¬∀ (hdr : FrameHeader) (rest : GoString), hdr.tag.length ≤ 255 →
      readHeader (writeHeader hdr ++ rest) = .ok (hdr, rest) := by
  intro h
  have hread := h noMagic [] (by decide)
  obtain ⟨⟨hmagic, -⟩, -⟩ := (exact_header _ _ _).mp hread
  exact absurd hmagic (by decide)

end Ingest

end Xsiam
