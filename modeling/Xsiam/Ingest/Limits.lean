import Xsiam.Ingest.Sender

/-!
# Frames of the greatest size

`handleBinary` of `internal/ingest/handler.go` takes bodies of up to `maxBodyBytes`, and reads the
request through a limit of one byte more than that, lest a larger one be read to its end. The limit
counts what comes before the body too. So a frame is read whole (`Xsiam.Ingest.readWhole_iff`)
exactly if its body leaves room for its header; a larger one is within the size that is asked for,
and the handler calls it truncated.
-/

namespace Xsiam

namespace Ingest

open Go Codec

/-! ### The body of a request -/

/-- What `handleBinary` hands to `DecodeBatch`, with the header it came under. -/
def framedBody (request : GoString) : Except Rejection (FrameHeader × GoString) :=
  match readHeader (request.take (maxBodyBytes + 1)) with
  | .error (.badMagic _) => .error .badMagic
  | .error e => .error (.malformedHeader e)
  | .ok (hdr, bs) =>
    if hdr.version ≠ version then .error (.unsupportedVersion hdr.version)
    else if hdr.type ≠ typeLogBatch then .error (.unexpectedType hdr.type)
    else if maxBodyBytes < hdr.bodyLen.toNat then .error .tooLarge
    else
      match readFull hdr.bodyLen.toNat bs with
      | none => .error (.truncatedBody (readFullError bs))
      | some (body, _) => .ok (hdr, body)

/-- A body decoded, under its header. -/
def decodeFramed (f : FrameHeader × GoString) : Except Rejection (FrameHeader × LogBatch) :=
  match decodeBatch f.2 with
  | .error e => .error (.tlvDecode e)
  | .ok batch => .ok (f.1, batch)

/-- **The handler decodes the body it has framed**, and nothing else. -/
theorem receive_eq (request : GoString) : receive request = (framedBody request).bind decodeFramed := by
  rw [receive, framedBody]
  rcases readHeader (request.take (maxBodyBytes + 1)) with e | ⟨hdr, bs⟩
  · cases e <;> rfl
  · dsimp only
    split_ifs
    · rfl
    · rfl
    · rfl
    · rcases readFull hdr.bodyLen.toNat bs with _ | ⟨body, rest⟩ <;> rfl

/-- A header of the protocol, with the length of a body. -/
structure FrameHeader.Matches (hdr : FrameHeader) (body : GoString) : Prop where
  tag : hdr.tag.length ≤ 255
  version : hdr.version = Ingest.version
  type : hdr.type = typeLogBatch
  bodyLen : hdr.bodyLen.toNat = body.length

/-- The frame of a body is read whole: it is that body that is decoded, and the frame is rejected as
too large only if the body is. -/
structure ReadWhole (hdr : FrameHeader) (body : GoString) : Prop where
  decoded : framedBody (writeHeader hdr ++ body) = .ok (hdr.onWire, body)
  tooLarge : receive (writeHeader hdr ++ body) = .error .tooLarge → maxBodyBytes < hdr.bodyLen.toNat

section Frames

variable {hdr : FrameHeader} {body : GoString}

/-- What is within the limit, of a header and a body. -/
theorem take_frame (h : hdr.Matches body) : (writeHeader hdr ++ body).take (maxBodyBytes + 1) =
    writeHeader hdr ++ body.take (maxBodyBytes + 1 - (fixedHeaderSize + hdr.tag.length)) := by
  have hlength : (writeHeader hdr).length = fixedHeaderSize + hdr.tag.length := by
    rw [length_writeHeader, wireTag_of_le h.tag]
  have htag := h.tag
  rw [List.take_append, hlength, List.take_of_length_le]
  rw [hlength, fixedHeaderSize, maxBodyBytes]
  omega

/-- **What becomes of a frame**: its body, if all of it is within the limit. -/
theorem framedBody_frame (h : hdr.Matches body) (hmax : body.length ≤ maxBodyBytes) :
    framedBody (writeHeader hdr ++ body) =
      if fixedHeaderSize + hdr.tag.length + body.length ≤ maxBodyBytes + 1 then
        .ok (hdr.onWire, body)
      else .error (.truncatedBody .unexpectedEOF) := by
  have hread := exact_header.read_write (FrameHeader.wellFormed_onWire h.tag)
    (body.take (maxBodyBytes + 1 - (fixedHeaderSize + hdr.tag.length)))
  rw [writeHeader_onWire] at hread
  -- the header is always read: the limit is past it
  rw [framedBody, take_frame h, hread]
  have hversion : hdr.onWire.version = version := h.version
  have htype : hdr.onWire.type = typeLogBatch := h.type
  have hlen : hdr.onWire.bodyLen.toNat = body.length := h.bodyLen
  dsimp only
  rw [if_neg (not_not.mpr hversion), if_neg (not_not.mpr htype), hlen, if_neg (Nat.not_lt.mpr hmax)]
  have htag := h.tag
  split_ifs with hfits
  · rw [List.take_of_length_le (by omega)]
    have hwhole := readFull_append body ([] : GoString)
    rw [List.append_nil] at hwhole
    rw [hwhole]
  · -- the limit cuts the body, but not in front of its first byte
    set cut := body.take (maxBodyBytes + 1 - (fixedHeaderSize + hdr.tag.length)) with hcut
    have hlength : cut.length = maxBodyBytes + 1 - (fixedHeaderSize + hdr.tag.length) := by
      rw [hcut, List.length_take]
      omega
    have hne : cut ≠ [] := by
      rw [← List.length_pos_iff, hlength, fixedHeaderSize, maxBodyBytes]
      omega
    have hshort : ¬body.length ≤ cut.length := by
      rw [hlength]
      simp only [fixedHeaderSize, maxBodyBytes] at hfits ⊢
      omega
    rw [readFull, if_neg hshort]
    dsimp only
    rw [readFullError, if_neg hne]

/-- **A frame is read whole exactly if its body leaves room for its header.** -/
theorem readWhole_iff (h : hdr.Matches body) (hmax : body.length ≤ maxBodyBytes) :
    ReadWhole hdr body ↔ fixedHeaderSize + hdr.tag.length + body.length ≤ maxBodyBytes + 1 := by
  have hframed := framedBody_frame h hmax
  constructor
  · intro hwhole
    by_contra hfits
    rw [if_neg hfits, hwhole.decoded] at hframed
    exact nomatch hframed
  · intro hfits
    rw [if_pos hfits] at hframed
    refine ⟨hframed, fun hlarge => ?_⟩
    rw [receive_eq, hframed, Except.bind, decodeFramed] at hlarge
    split at hlarge <;> exact nomatch hlarge

end Frames

/-! ### Two frames -/

/-- The header of a body without a tag. -/
def plainHeader (body : GoString) : FrameHeader :=
  ⟨magic, version, typeLogBatch, 0, [], 7, 1, 0, UInt32.ofNat body.length⟩

theorem matches_plainHeader {body : GoString} (h : body.length ≤ maxBodyBytes) :
    (plainHeader body).Matches body := by
  refine ⟨Nat.zero_le _, rfl, rfl, ?_⟩
  rw [plainHeader, UInt32.toNat_ofNat', Nat.mod_eq_of_lt]
  rw [maxBodyBytes] at h
  omega

/-- A frame with a body, under the tag of an agent. -/
theorem readWhole_iff_tagged :
    ReadWhole { plainHeader (str "entries") with tag := str "xsiam.agent-00001" } (str "entries") :=
  (readWhole_iff ⟨by decide, rfl, rfl, rfl⟩ (by decide)).mpr (by decide)

/-- A body of `maxBodyBytes`, none of which is too many. -/
theorem not_readWhole : ¬∀ (hdr : FrameHeader) (body : GoString), hdr.Matches body →
    body.length ≤ maxBodyBytes → ReadWhole hdr body := by
  intro h
  have hlength : (List.replicate maxBodyBytes (0 : UInt8)).length = maxBodyBytes :=
    List.length_replicate
  have hmatches := matches_plainHeader hlength.le
  have hdecoded := (h _ _ hmatches hlength.le).decoded
  rw [framedBody_frame hmatches hlength.le, if_neg] at hdecoded
  · exact nomatch hdecoded
  · rw [hlength, plainHeader, fixedHeaderSize]
    dsimp only [List.length_nil]
    omega

end Ingest

end Xsiam
