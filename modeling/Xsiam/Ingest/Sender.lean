import Xsiam.Ingest.Tlv

/-!
# A batch on its way

`cmd/xlog_sender/main.go` sends one batch in one request, and `handleBinary` of
`internal/ingest/handler.go` takes it out again. The handler allows for a body of 32 MB;
the length of a field has two bytes, and all data of a batch is one field.

The sender of the repository cuts the length to these two bytes and writes the value all
the same, where `EncodeTLV` fails. In both ways a batch arrives as it was sent exactly when
its tag, its column names and its data fit (`Xsiam.Ingest.survives_iff_carried`).
-/

namespace Xsiam

namespace Ingest

open Go Codec

/-! ### The sender -/

/-- What the sender puts into one request. -/
structure Message where
  tag : GoString
  agentID : UInt64
  seq : UInt64
  tsMs : UInt64
  rowCount : UInt32
  origSize : UInt32
  columns : List GoString
  /-- The rows, compressed. -/
  compressed : GoString

/-- The batch a message is about. -/
def Message.batch (m : Message) : LogBatch where
  schemaVersion := 1
  rowCount := m.rowCount
  origSize := m.origSize
  columns := m.columns
  compressedTSV := m.compressed

/-- `writeTLV`: the length is cut to two bytes, the value is not. -/
def writeTLV (w : GoString) (tag : UInt8) (value : GoString) : GoString :=
  w ++ [tag, UInt8.ofNat (value.length / 256), UInt8.ofNat value.length] ++ value

/-- The fields of the body, in the order of the sender. -/
def Message.tlvs (m : Message) : List TLV :=
  [⟨tagSchemaVersion, be16 1⟩, ⟨tagRowCount, be32 m.rowCount⟩, ⟨tagOrigSize, be32 m.origSize⟩,
    ⟨tagColumns, join m.columns [0x2C]⟩, ⟨tagData, m.compressed⟩]

/-- The body as the sender builds it. -/
def Message.body (m : Message) : GoString :=
  m.tlvs.foldl (fun w t => writeTLV w t.tag t.value) []

/-- The payload of the request: the header with the tag as it is, and a body. -/
def Message.payload (m : Message) (body : GoString) : GoString :=
  be32 magic ++ [version, typeLogBatch, 0, UInt8.ofNat m.tag.length] ++ m.tag ++
    (be64 m.agentID ++ be64 m.seq ++ be64 m.tsMs ++ be32 (UInt32.ofNat body.length)) ++ body

/-! ### The handler -/

/-- `maxBodyBytes` -/
def maxBodyBytes : ℕ := 32 * 2 ^ 20

/-- What `handleBinary` answers to a request that it does not take. -/
inductive Rejection where
  /-- `bad xlog magic` -/
  | badMagic
  /-- `malformed xlog header: %s` -/
  | malformedHeader (err : HeaderError)
  /-- `unsupported xlog version %d` -/
  | unsupportedVersion (got : UInt8)
  /-- `expected TypeLogBatch(0x01), got %d` -/
  | unexpectedType (got : UInt8)
  /-- `body exceeds 32 MB` -/
  | tooLarge
  /-- `truncated body: %s` -/
  | truncatedBody (cause : ReadFullError)
  /-- `tlv decode: %s` -/
  | tlvDecode (err : BatchError)
  deriving DecidableEq

/-- `handleBinary`, up to the batch and before its data is decompressed. -/
def receive (request : GoString) : Except Rejection (FrameHeader × LogBatch) :=
  match readHeader (request.take (maxBodyBytes + 1)) with
  | .error (.badMagic _) => .error .badMagic
  | .error e => .error (.malformedHeader e)
  | .ok (hdr, bs) =>
    if hdr.version ≠ version then .error (.unsupportedVersion hdr.version)
    else if hdr.type ≠ typeLogBatch then .error (.unexpectedType hdr.type)
    else if maxBodyBytes < hdr.bodyLen.toNat then .error .tooLarge
    else
      match readFull hdr.bodyLen.toNat bs with
      | none => .error (.truncatedBody (readFullError bs))
      | some (body, _) =>
        match decodeBatch body with
        | .error e => .error (.tlvDecode e)
        | .ok batch => .ok (hdr, batch)

/-- A request that is accepted starts with a header, and a part of what follows it is a
batch. -/
theorem receive_eq_ok {request : GoString} {hdr : FrameHeader} {batch : LogBatch}
    (h : receive request = .ok (hdr, batch)) :
    (∃ rest, readHeader (request.take (maxBodyBytes + 1)) = .ok (hdr, rest)) ∧
      ∃ body, decodeBatch body = .ok batch := by
  rw [receive] at h
  rcases hread : readHeader (request.take (maxBodyBytes + 1)) with e | ⟨hdr', rest⟩
  · rw [hread] at h
    rcases e with _ | _ | _ | _ <;> simp at h
  rw [hread] at h
  dsimp only at h
  split_ifs at h
  rcases hbody : readFull hdr'.bodyLen.toNat rest with _ | ⟨body, rest'⟩
  · rw [hbody] at h
    simp at h
  rw [hbody] at h
  dsimp only at h
  rcases hbatch : decodeBatch body with e | batch'
  · rw [hbatch] at h
    simp at h
  rw [hbatch] at h
  obtain ⟨rfl, rfl⟩ := Prod.mk.inj (Except.ok.inj h)
  exact ⟨⟨rest, rfl⟩, body, hbatch⟩

/-! ### What a decoded batch can hold -/

/-- A batch whose columns and data came out of fields that fit. -/
structure LogBatch.Bounded (b : LogBatch) : Prop where
  columns : ∃ v : GoString, v.length < 2 ^ 16 ∧ b.columns = splitColumns v
  data : b.compressedTSV.length < 2 ^ 16

theorem LogBatch.bounded_default : LogBatch.Bounded {} := ⟨⟨[], by decide, rfl⟩, by decide⟩

theorem bounded_decodeField {b b' : LogBatch} {t : TLV} (hb : b.Bounded) (ht : t.Fits)
    (h : decodeField b t = .ok b') : b'.Bounded := by
  rw [decodeField] at h
  split_ifs at h
  all_goals
    obtain rfl := Except.ok.inj h
  · exact ⟨hb.columns, hb.data⟩
  · exact ⟨hb.columns, hb.data⟩
  · exact ⟨hb.columns, hb.data⟩
  · exact ⟨⟨t.value, ht, rfl⟩, hb.data⟩
  · exact ⟨hb.columns, ht⟩
  · exact hb

theorem bounded_decodeFields {ts : List TLV} (hts : ∀ t ∈ ts, t.Fits) : ∀ {b b' : LogBatch},
    b.Bounded → decodeFields b ts = .ok b' → b'.Bounded := by
  induction ts with
  | nil =>
    intro b b' hb h
    obtain rfl := Except.ok.inj h
    exact hb
  | cons t ts ih =>
    intro b b' hb h
    obtain ⟨ht, hts⟩ := List.forall_mem_cons.mp hts
    rw [decodeFields] at h
    rcases hfield : decodeField b t with e | b₁
    · rw [hfield] at h
      simp at h
    · rw [hfield] at h
      exact ih hts (bounded_decodeField hb ht hfield) h

/-- **No batch holds more than one field can**, however it was sent. -/
theorem bounded_decodeBatch {body : GoString} {b : LogBatch} (h : decodeBatch body = .ok b) :
    b.Bounded ∧ b.compressedTSV ≠ [] := by
  rw [decodeBatch] at h
  rcases htlvs : decodeTLVs body with e | ts
  · rw [htlvs] at h
    simp at h
  rw [htlvs] at h
  dsimp only at h
  have hfits : ∀ t ∈ ts, t.Fits := ((Reader.readAll_eq_ok exact_tlv).mp htlvs).1
  rcases hfields : decodeFields {} ts with e | b'
  · rw [hfields] at h
    simp at h
  rw [hfields] at h
  dsimp only at h
  split_ifs at h with hdata
  obtain rfl := Except.ok.inj h
  exact ⟨bounded_decodeFields hfits LogBatch.bounded_default hfields, hdata⟩

/-! ### What is carried -/

/-- A message comes out as it was sent: its header has the tag, its batch the columns and
all data. -/
def Message.Survives (m : Message) (body : GoString) : Prop :=
  ∃ hdr, receive (m.payload body) = .ok (hdr, m.batch) ∧ hdr.tag = m.tag

/-- A message whose parts fit: the length of the tag has one byte, that of a field two, and
the names of the columns can be told apart. -/
structure Message.Carried (m : Message) : Prop where
  tag : m.tag.length ≤ 255
  comma : ∀ col ∈ m.columns, 0x2C ∉ col
  unnamed : m.columns ≠ [[]]
  columns : (join m.columns [0x2C]).length < 2 ^ 16
  present : m.compressed ≠ []
  data : m.compressed.length < 2 ^ 16

/-- Only a message whose parts fit can be read back, whatever stands in the body. -/
theorem Message.Survives.carried {m : Message} {body : GoString} (h : m.Survives body) :
    m.Carried := by
  obtain ⟨hdr, hreceive, htag⟩ := h
  obtain ⟨⟨rest, hread⟩, body', hbatch⟩ := receive_eq_ok hreceive
  obtain ⟨hwf, -⟩ := (exact_header _ _ _).mp hread
  obtain ⟨⟨⟨v, hv, hcols⟩, hdata⟩, hsome⟩ := bounded_decodeBatch hbatch
  have hjoin : join m.columns [0x2C] = v := by
    rw [show m.columns = splitColumns v from hcols, join_splitColumns]
  have hsplit : splitColumns (join m.columns [0x2C]) = m.columns := by
    rw [hjoin]
    exact hcols.symm
  obtain ⟨hcomma, hunnamed⟩ := (splitColumns_join_iff _).mp hsplit
  exact ⟨htag ▸ hwf.tag, hcomma, hunnamed, hjoin ▸ hv, hsome, hdata⟩

/-- The body of the sender is the bytes of its fields. -/
theorem Message.body_eq (m : Message) : m.body = m.tlvs.flatMap tlvBytes := by
  have hfold : ∀ (ts : List TLV) (w : GoString),
      ts.foldl (fun w t => writeTLV w t.tag t.value) w = w ++ ts.flatMap tlvBytes := by
    intro ts
    induction ts with
    | nil =>
      intro w
      simp
    | cons t ts ih =>
      intro w
      rw [List.foldl_cons, ih, List.flatMap_cons, writeTLV, tlvBytes]
      simp only [List.append_assoc]
  rw [Message.body, hfold, List.nil_append]

theorem Message.length_body (m : Message) :
    m.body.length = 25 + (join m.columns [0x2C]).length + m.compressed.length := by
  rw [Message.body_eq]
  simp only [Message.tlvs, tlvBytes, List.flatMap_cons, List.flatMap_nil, List.length_append,
    List.length_cons, List.length_nil, length_be16, length_be32]
  omega

theorem Message.fits_iff (m : Message) : (∀ t ∈ m.tlvs, t.Fits) ↔
    (join m.columns [0x2C]).length < 2 ^ 16 ∧ m.compressed.length < 2 ^ 16 := by
  simp [Message.tlvs, TLV.Fits]

/-- A body whose fields fit is decoded to the batch it was built from. -/
theorem Message.Carried.decodeBatch_body {m : Message} (h : m.Carried) :
    decodeBatch m.body = .ok m.batch := by
  have htlvs : decodeTLVs m.body = .ok m.tlvs :=
    (Reader.readAll_eq_ok exact_tlv).mpr ⟨m.fits_iff.mpr ⟨h.columns, h.data⟩, m.body_eq⟩
  have hcols := (splitColumns_join_iff m.columns).mpr ⟨h.comma, h.unnamed⟩
  have hfields : decodeFields {} m.tlvs = .ok m.batch := by
    have htake16 : (be16 1).take 2 = be16 1 := List.take_of_length_le (length_be16 _).le
    have htake32 : ∀ v : UInt32, (be32 v).take 4 = be32 v := fun v =>
      List.take_of_length_le (length_be32 v).le
    simp [Message.tlvs, decodeFields, decodeField, Message.batch, tagSchemaVersion, tagRowCount,
      tagOrigSize, tagColumns, tagData, htake16, htake32, hcols]
  rw [decodeBatch, htlvs]
  dsimp only
  rw [hfields]
  exact if_neg h.present

/-- The header of a message whose tag fits is one that `WriteHeader` writes. -/
theorem Message.payload_eq {m : Message} (htag : m.tag.length ≤ 255) (body : GoString) :
    m.payload body = writeHeader ⟨magic, version, typeLogBatch, 0, m.tag, m.agentID, m.seq,
      m.tsMs, UInt32.ofNat body.length⟩ ++ body := by
  rw [writeHeader, wireTag_of_le htag, Message.payload]

/-- A message whose parts fit comes out as it was sent. -/
theorem Message.Carried.survives {m : Message} (h : m.Carried) : m.Survives m.body := by
  have hbody : m.body.length < 2 ^ 18 := by
    have hcols := h.columns
    have hdata := h.data
    rw [m.length_body]
    omega
  have hlen : (UInt32.ofNat m.body.length).toNat = m.body.length :=
    UInt32.toNat_ofNat_of_lt' (hbody.trans (by decide))
  have htotal : (m.payload m.body).length ≤ maxBodyBytes + 1 := by
    have htag := h.tag
    rw [Message.payload_eq h.tag, List.length_append, length_writeHeader, wireTag_of_le h.tag,
      fixedHeaderSize, maxBodyBytes]
    omega
  refine ⟨⟨magic, version, typeLogBatch, 0, m.tag, m.agentID, m.seq, m.tsMs,
    UInt32.ofNat m.body.length⟩, ?_, rfl⟩
  rw [receive, List.take_of_length_le htotal, Message.payload_eq h.tag,
    exact_header.read_write ⟨rfl, h.tag⟩]
  dsimp only
  rw [if_neg (not_not.mpr rfl), if_neg (not_not.mpr rfl), hlen, maxBodyBytes, if_neg (by omega)]
  have hread : readFull m.body.length m.body = some (m.body, []) := by
    simpa using readFull_append m.body []
  rw [hread]
  dsimp only
  rw [h.decodeBatch_body]

/-- **Which batches survive**: those whose parts fit, with either of the two encoders. -/
theorem survives_iff_carried (m : Message) :
    (m.Survives m.body ↔ m.Carried) ∧
      ((∃ body, encodeTLVs m.tlvs = .ok body ∧ m.Survives body) ↔ m.Carried) := by
  refine ⟨⟨Message.Survives.carried, Message.Carried.survives⟩, ?_, fun h => ⟨m.body, ?_, h.survives⟩⟩
  · rintro ⟨body, -, h⟩
    exact h.carried
  · exact encodeTLVs_eq_ok.mpr ⟨m.fits_iff.mpr ⟨h.columns, h.data⟩, m.body_eq⟩

/-- A batch of one column whose data takes `n` bytes. -/
def zeros (n : ℕ) : Message :=
  ⟨str "winevent.wzcp", 10001, 1, 0, 1, 0, [str "kind"], List.replicate n 0⟩

theorem length_body_zeros (n : ℕ) : (zeros n).body.length = 29 + n := by
  rw [Message.length_body]
  change 25 + (str "kind").length + (List.replicate n (0 : UInt8)).length = _
  rw [List.length_replicate]
  rfl

/-- A body far below the limit of the handler is lost all the same. -/
theorem batch_lost : ¬∀ m : Message, m.body.length ≤ maxBodyBytes → m.Survives m.body := by
  intro h
  have hle : (zeros (2 ^ 16)).body.length ≤ maxBodyBytes := by
    rw [length_body_zeros, maxBodyBytes]
    omega
  have hdata : (List.replicate (2 ^ 16) (0 : UInt8)).length < 2 ^ 16 := (h _ hle).carried.data
  rw [List.length_replicate] at hdata
  exact absurd hdata (lt_irrefl _)

end Ingest

end Xsiam
