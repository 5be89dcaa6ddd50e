import Xsiam.Ingest.Limits
import Xsiam.Ingest.Tsv

/-!
# The encoders in C

Frames for the ingest handler are also built in C: by `xlog_batch_encode` of `agents/xlog/xlog.c`, the
library for agents, and by `send_xlog_frame` of the gateway's output plugin. Both write the length of the
data twice if it does not fit into two bytes, the second time in front of the data; `xlog.c` says that
the decoder in Go knows about this.

It does not. A batch arrives as it was encoded exactly if its data fits
(`Xsiam.Ingest.receive_frame_iff`), and then its rows are read back
(`Xsiam.Ingest.xlog_arrives_iff`).
-/

namespace Xsiam

namespace Ingest

open Go Codec

/-! ### Definitions -/

/-- `tlv_append`: the value is cut to its length. -/
def tlvAppend (body : GoString) (tag : UInt8) (val : GoString) (vlen : UInt16) : GoString :=
  body ++ ([tag] ++ be16 vlen) ++ val.take vlen.toNat

/-- The field of the data: its length in two bytes, or in two bytes of it and again in four. -/
def dataAppend (body comp : GoString) : GoString :=
  if comp.length ≤ 0xFFFF then tlvAppend body tagData comp (UInt16.ofNat comp.length)
  else body ++ ([tagData] ++ be16 (UInt16.ofNat comp.length) ++ be32 (UInt32.ofNat comp.length)) ++ comp

/-- The column names of a frame, which `xlog_batch_encode` leaves out if there are none. -/
def columnsAppend (body columns : GoString) : GoString :=
  if columns = [] then body
  else tlvAppend body tagColumns columns (UInt16.ofNat (min columns.length 0xFFFF))

/-- The body that both encoders build. -/
def xlogBody (rowCount origSize : UInt32) (columns comp : GoString) : GoString :=
  let body := tlvAppend [] tagSchemaVersion (be16 1) 2
  let body := tlvAppend body tagRowCount (be32 rowCount) 4
  let body := tlvAppend body tagOrigSize (be32 origSize) 4
  dataAppend (columnsAppend body columns) comp

/-- The frame that both encoders build. -/
def xlogFrame (tag : GoString) (agentID seq tsMs : UInt64) (body : GoString) : GoString :=
  let tlen := min tag.length 255
  be32 magic ++ [version, typeLogBatch, 0, UInt8.ofNat tlen] ++ tag.take tlen ++
    (be64 agentID ++ be64 seq ++ be64 tsMs ++ be32 (UInt32.ofNat body.length)) ++ body

/-! ### The library for agents -/

/-- `xlog_batch` -/
structure XlogBatch where
  tag : GoString
  columnsCsv : Option GoString
  agentID : UInt64
  seq : UInt64
  tsv : GoString
  rowCount : ℕ

/-- `XLOG_ERR_COMPRESS`, `XLOG_ERR_TOO_LARGE` and `XLOG_ERR_PARAM` -/
inductive XlogError where
  | compress
  | tooLarge
  | param
  deriving DecidableEq

/-- `XLOG_MAX_FRAME_BODY` -/
def xlogMaxFrameBody : ℕ := 32 * 1024 * 1024

/-- `xlog_batch_new` -/
def xlogBatchNew (tag : GoString) (agentID seq : UInt64) : XlogBatch :=
  ⟨tag.take 255, none, agentID, seq, [], 0⟩

/-- `tabs_to_commas` -/
def tabsToCommas (s : GoString) : Option GoString :=
  if s = [] then none else some (s.map fun c => if c = 0x09 then 0x2C else c)

/-- `xlog_batch_set_columns` -/
def XlogBatch.setColumns (b : XlogBatch) (columns : Option GoString) : XlogBatch :=
  { b with columnsCsv := columns.bind tabsToCommas }

/-- `xlog_batch_append_row` -/
def XlogBatch.appendRow (b : XlogBatch) (row : GoString) : Except XlogError XlogBatch :=
  if xlogMaxFrameBody < b.tsv.length + row.length + 1 then .error .tooLarge
  else .ok { b with tsv := b.tsv ++ row ++ str "\n", rowCount := b.rowCount + 1 }

/-- `xlog_batch_encode`, with the time and the compressor. -/
def XlogBatch.encode (b : XlogBatch) (compress : GoString → Option GoString) (tsMs : UInt64) :
    Except XlogError GoString :=
  if b.tsv = [] then .error .param
  else
    match compress b.tsv with
    | none => .error .compress
    | some comp =>
      .ok (xlogFrame b.tag b.agentID b.seq tsMs (xlogBody (UInt32.ofNat b.rowCount)
        (UInt32.ofNat b.tsv.length) (b.columnsCsv.getD []) comp))

/-! ### What arrives of a frame -/

/-- The batch that a frame is to carry. -/
def carriedBatch (rowCount origSize : UInt32) (columns comp : GoString) : LogBatch where
  schemaVersion := 1
  rowCount
  origSize
  columns := splitColumns (columns.take 0xFFFF)
  compressedTSV := comp

/-- Its header. -/
def carriedHeader (tag : GoString) (agentID seq tsMs : UInt64) (body : GoString) : FrameHeader :=
  ⟨magic, version, typeLogBatch, 0, tag.take 255, agentID, seq, tsMs, UInt32.ofNat body.length⟩

/-- A value that fits is a field as the decoder knows them. -/
theorem tlvAppend_eq (body : GoString) (tag : UInt8) {val : GoString} (h : val.length < 2 ^ 16) :
    tlvAppend body tag val (UInt16.ofNat val.length) = body ++ tlvBytes ⟨tag, val⟩ := by
  have hlen : (UInt16.ofNat val.length).toNat = val.length := UInt16.toNat_ofNat_of_lt' h
  rw [tlvAppend, hlen, List.take_length, tlvBytes, be16_length (t := ⟨tag, val⟩) h]
  simp

theorem tlvAppend_be16 (body : GoString) (tag : UInt8) (v : UInt16) :
    tlvAppend body tag (be16 v) 2 = body ++ tlvBytes ⟨tag, be16 v⟩ := by
  have hlen : (be16 v).length < 2 ^ 16 := by rw [length_be16]; omega
  have h := tlvAppend_eq body tag hlen
  rwa [length_be16] at h

theorem tlvAppend_be32 (body : GoString) (tag : UInt8) (v : UInt32) :
    tlvAppend body tag (be32 v) 4 = body ++ tlvBytes ⟨tag, be32 v⟩ := by
  have hlen : (be32 v).length < 2 ^ 16 := by rw [length_be32]; omega
  have h := tlvAppend_eq body tag hlen
  rwa [length_be32] at h

/-- Column names are cut to the length of a field. -/
theorem columnsAppend_eq (body : GoString) {columns : GoString} (hne : columns ≠ []) :
    columnsAppend body columns = body ++ tlvBytes ⟨tagColumns, columns.take 0xFFFF⟩ := by
  have hlen : (columns.take 0xFFFF).length = min columns.length 0xFFFF := by
    rw [List.length_take, min_comm]
  have hfits : (columns.take 0xFFFF).length < 2 ^ 16 := by omega
  have hnum : (UInt16.ofNat (min columns.length 0xFFFF)).toNat = min columns.length 0xFFFF :=
    UInt16.toNat_ofNat_of_lt' (lt_of_le_of_lt (min_le_right ..) (by decide))
  rw [columnsAppend, if_neg hne, ← tlvAppend_eq _ _ hfits, hlen, tlvAppend, tlvAppend, hnum,
    List.take_take, min_eq_left (min_le_right ..)]

/-- The fields of a body. -/
def xlogTlvs (rowCount origSize : UInt32) (columns comp : GoString) : List TLV :=
  [⟨tagSchemaVersion, be16 1⟩, ⟨tagRowCount, be32 rowCount⟩, ⟨tagOrigSize, be32 origSize⟩] ++
    (if columns = [] then [] else [⟨tagColumns, columns.take 0xFFFF⟩]) ++ [⟨tagData, comp⟩]

section Frame

variable {tag columns comp : GoString} {agentID seq tsMs : UInt64} {rowCount origSize : UInt32}

/-- **A body whose data fits is its fields.** -/
theorem xlogBody_eq (hfits : comp.length ≤ 0xFFFF) :
    xlogBody rowCount origSize columns comp =
      (xlogTlvs rowCount origSize columns comp).flatMap tlvBytes := by
  have hdata : comp.length < 2 ^ 16 := by omega
  rw [xlogBody, xlogTlvs, dataAppend, if_pos hfits, tlvAppend_eq _ _ hdata, tlvAppend_be32, tlvAppend_be32,
    tlvAppend_be16]
  by_cases hcols : columns = []
  · rw [columnsAppend, if_pos hcols, if_pos hcols]
    simp
  · rw [columnsAppend_eq _ hcols, if_neg hcols]
    simp

theorem xlogTlvs_fits (hfits : comp.length ≤ 0xFFFF) :
    ∀ t ∈ xlogTlvs rowCount origSize columns comp, t.Fits := by
  intro t ht
  rw [xlogTlvs] at ht
  split_ifs at ht
  all_goals
    simp only [List.cons_append, List.nil_append, List.append_nil, List.mem_cons,
      List.not_mem_nil, or_false] at ht
  · rcases ht with rfl | rfl | rfl | rfl
    all_goals simp [TLV.Fits]
    omega
  · rcases ht with rfl | rfl | rfl | rfl | rfl
    all_goals simp [TLV.Fits]
    omega

theorem decodeFields_xlogTlvs :
    decodeFields {} (xlogTlvs rowCount origSize columns comp) =
      .ok (carriedBatch rowCount origSize columns comp) := by
  have htake16 : (be16 1).take 2 = be16 1 := List.take_of_length_le (length_be16 _).le
  have htake32 : ∀ v : UInt32, (be32 v).take 4 = be32 v := fun v =>
    List.take_of_length_le (length_be32 v).le
  by_cases hcols : columns = []
  · simp [xlogTlvs, hcols, decodeFields, decodeField, carriedBatch, tagSchemaVersion, tagRowCount,
      tagOrigSize, tagColumns, tagData, htake16, htake32, splitColumns]
  · simp [xlogTlvs, hcols, decodeFields, decodeField, carriedBatch, tagSchemaVersion, tagRowCount,
      tagOrigSize, tagColumns, tagData, htake16, htake32]

/-- **A frame whose data fits arrives.** -/
theorem receive_frame (hne : comp ≠ []) (hfits : comp.length ≤ 0xFFFF) :
    receive (xlogFrame tag agentID seq tsMs (xlogBody rowCount origSize columns comp)) =
      .ok (carriedHeader tag agentID seq tsMs (xlogBody rowCount origSize columns comp),
        carriedBatch rowCount origSize columns comp) := by
  set body := xlogBody rowCount origSize columns comp with hbody
  have htlvs : decodeTLVs body = .ok (xlogTlvs rowCount origSize columns comp) :=
    (Reader.readAll_eq_ok exact_tlv).mpr ⟨xlogTlvs_fits hfits, xlogBody_eq hfits⟩
  have hbatch : decodeBatch body = .ok (carriedBatch rowCount origSize columns comp) := by
    rw [decodeBatch, htlvs]
    dsimp only
    rw [decodeFields_xlogTlvs]
    exact if_neg hne
  have hlen : body.length < 2 ^ 18 := by
    have hcut : (columns.take 0xFFFF).length ≤ 0xFFFF := by
      rw [List.length_take]
      omega
    rw [hbody, xlogBody_eq hfits, xlogTlvs]
    split_ifs
    all_goals
      simp only [List.cons_append, List.nil_append, tlvBytes, List.flatMap_cons,
        List.flatMap_nil, List.length_append, List.length_cons, List.length_nil, length_be16,
        length_be32]
      omega
  have hnum : (UInt32.ofNat body.length).toNat = body.length :=
    UInt32.toNat_ofNat_of_lt' (hlen.trans (by decide))
  have htag : (tag.take 255).length ≤ 255 := by
    rw [List.length_take]
    omega
  -- the encoders cut the tag as the header's writer does
  have hframe : xlogFrame tag agentID seq tsMs body =
      writeHeader (carriedHeader tag agentID seq tsMs body) ++ body := by
    have hmin : min tag.length 255 = (tag.take 255).length := by rw [List.length_take, min_comm]
    have htake : tag.take (min tag.length 255) = tag.take 255 := by
      rw [← List.take_take, List.take_of_length_le]
      rw [List.length_take]
      exact min_le_right ..
    rw [xlogFrame, writeHeader, carriedHeader]
    dsimp only
    rw [wireTag_of_le htag, htake, hmin]
  have hmatches : (carriedHeader tag agentID seq tsMs body).Matches body :=
    ⟨htag, rfl, rfl, hnum⟩
  have hframed := framedBody_frame hmatches (by rw [maxBodyBytes]; omega)
  rw [if_pos (by
    rw [fixedHeaderSize, maxBodyBytes]
    have : (carriedHeader tag agentID seq tsMs body).tag.length ≤ 255 := htag
    omega)] at hframed
  rw [hframe, receive_eq, hframed, Except.bind, decodeFramed]
  dsimp only
  rw [hbatch]
  rfl

/-- **A frame arrives as it was encoded exactly if its data fits**; of a longer one, the handler does not
get the data, whatever it makes of the frame. -/
theorem receive_frame_iff (hne : comp ≠ []) :
    (receive (xlogFrame tag agentID seq tsMs (xlogBody rowCount origSize columns comp)) =
        .ok (carriedHeader tag agentID seq tsMs (xlogBody rowCount origSize columns comp),
          carriedBatch rowCount origSize columns comp) ↔ comp.length ≤ 0xFFFF) ∧
      (0xFFFF < comp.length → ∀ hdr batch,
        receive (xlogFrame tag agentID seq tsMs (xlogBody rowCount origSize columns comp)) =
          .ok (hdr, batch) → batch.compressedTSV ≠ comp) := by
  have hbounded : ∀ {bs hdr batch}, receive bs = .ok (hdr, batch) → batch.compressedTSV.length < 2 ^ 16 := by
    intro bs hdr batch hreceive
    obtain ⟨-, body, hbatch⟩ := receive_eq_ok hreceive
    exact (bounded_decodeBatch hbatch).1.data
  refine ⟨⟨fun hreceive => ?_, receive_frame hne⟩, fun hlong hdr batch hreceive hdata => ?_⟩
  · have hdata : comp.length < 2 ^ 16 := hbounded hreceive
    omega
  · have hshort := hbounded hreceive
    rw [hdata] at hshort
    omega

/-- One byte of data arrives, and of 2^16 of them the handler does not get the data. -/
theorem receive_frame_of_byte :
    receive (xlogFrame (str "wzcp") 10001 1 1 (xlogBody 1 1 [] [0])) =
        .ok (carriedHeader (str "wzcp") 10001 1 1 (xlogBody 1 1 [] [0]), carriedBatch 1 1 [] [0]) ∧
      ∀ hdr batch,
        receive (xlogFrame (str "wzcp") 10001 1 1 (xlogBody 1 1 [] (List.replicate (2 ^ 16) 0))) =
          .ok (hdr, batch) → batch.compressedTSV ≠ List.replicate (2 ^ 16) 0 := by
  have hne : List.replicate (2 ^ 16) (0 : UInt8) ≠ [] := (List.replicate_eq_nil_iff 0).not.mpr (by decide)
  refine ⟨(receive_frame_iff (List.cons_ne_nil _ _)).1.mpr (by decide), (receive_frame_iff hne).2 ?_⟩
  rw [List.length_replicate]
  omega

end Frame

/-! ### A batch of the library -/

/-- The rows of a batch appended, up to the first that fails. -/
def XlogBatch.appendRows (b : XlogBatch) (rows : List (List GoString)) : Except XlogError XlogBatch :=
  rows.foldlM (fun b row => b.appendRow (rowLine row)) b

/-- **What a batch is after its rows**: the lines, all within the limit, and their number. -/
theorem XlogBatch.appendRows_eq_ok {rows : List (List GoString)} : ∀ {b b' : XlogBatch},
    b.appendRows rows = .ok b' → b.tsv.length ≤ xlogMaxFrameBody →
      b' = { b with
        tsv := b.tsv ++ rows.flatMap fun row => rowLine row ++ str "\n"
        rowCount := b.rowCount + rows.length } ∧ b'.tsv.length ≤ xlogMaxFrameBody := by
  induction rows with
  | nil =>
    intro b b' h hmax
    obtain rfl := Except.ok.inj h
    simpa using hmax
  | cons row rows ih =>
    intro b b' h hmax
    rw [appendRows, List.foldlM_cons] at h
    by_cases hlarge : xlogMaxFrameBody < b.tsv.length + (rowLine row).length + 1
    · rw [appendRow, if_pos hlarge] at h
      cases h
    · rw [appendRow, if_neg hlarge] at h
      have hlen : (b.tsv ++ rowLine row ++ str "\n").length ≤ xlogMaxFrameBody := by
        rw [List.length_append, List.length_append, show (str "\n").length = 1 from rfl]
        omega
      obtain ⟨heq, hmax'⟩ := ih h hlen
      refine ⟨heq.trans ?_, hmax'⟩
      simp [Nat.add_assoc, Nat.add_comm 1]

/-- The lines one by one are the lines joined. -/
theorem flatMap_rowLine {rows : List (List GoString)} (hne : rows ≠ []) :
    (rows.flatMap fun row => rowLine row ++ str "\n") = tsv rows := by
  induction rows with
  | nil => exact absurd rfl hne
  | cons row rows ih =>
    rw [List.flatMap_cons, tsv]
    rcases rows with - | ⟨row', rows⟩
    · rw [List.flatMap_nil, List.append_nil, List.map_singleton, join_singleton]
    · rw [ih (List.cons_ne_nil row' rows), tsv, List.map_cons, List.map_cons, List.map_cons,
        join_cons_cons, List.append_assoc, List.append_assoc, List.append_assoc]

/-- Names without tabs and commas, with tabs between them and then with commas. -/
theorem map_join_tabs {cols : List GoString} (h : ∀ col ∈ cols, 0x09 ∉ col) :
    (join cols (str "\t")).map (fun c => if c = 0x09 then 0x2C else c) = join cols [0x2C] := by
  have hmap : ∀ col : GoString, 0x09 ∉ col →
      col.map (fun c => if c = 0x09 then (0x2C : UInt8) else c) = col := by
    intro col hcol
    refine (List.map_congr_left fun c hc => if_neg ?_).trans col.map_id'
    rintro rfl
    exact hcol hc
  induction cols with
  | nil => rfl
  | cons col cols ih =>
    obtain ⟨hcol, hcols⟩ := List.forall_mem_cons.mp h
    rcases cols with - | ⟨col', cols⟩
    · rw [join_singleton, join_singleton, hmap col hcol]
    · rw [join_cons_cons, join_cons_cons, List.map_append, List.map_append, hmap col hcol,
        ih hcols]
      rfl

/-- The column names of a batch, as the decoder finds them. -/
theorem splitColumns_setColumns {cols : List GoString} (htab : ∀ col ∈ cols, 0x09 ∉ col)
    (hcomma : ∀ col ∈ cols, 0x2C ∉ col) (hunnamed : cols ≠ [[]])
    (hlen : (join cols (str "\t")).length ≤ 0xFFFF) :
    splitColumns (((tabsToCommas (join cols (str "\t"))).getD []).take 0xFFFF) = cols := by
  have hmap := map_join_tabs htab
  have hsplit := (splitColumns_join_iff cols).mpr ⟨hcomma, hunnamed⟩
  rw [tabsToCommas]
  split_ifs with hnil
  · rw [hnil] at hmap
    rw [← hmap] at hsplit
    exact hsplit
  · rw [Option.getD_some, hmap, List.take_of_length_le, hsplit]
    rwa [← hmap, List.length_map]

/-- The frame that zstd makes of a text that is too short to be compressed: one block, as it is. -/
def shortFrame (raw : GoString) : GoString :=
  [0x28, 0xB5, 0x2F, 0xFD, 0x20, UInt8.ofNat raw.length, UInt8.ofNat (raw.length * 8 + 1),
    UInt8.ofNat ((raw.length * 8 + 1) / 256), 0x00] ++ raw

/-- A compressor of such texts. -/
def shortCompress (raw : GoString) : Option GoString :=
  if raw.length < 64 then some (shortFrame raw) else none

/-- A decoder of their frames. -/
def shortDecode (frame : GoString) : Except GoString GoString :=
  if frame.take 5 = [0x28, 0xB5, 0x2F, 0xFD, 0x20] then .ok (frame.drop 9)
  else .error (str "invalid input: magic number mismatch")

theorem shortCompress_sound (raw comp : GoString) (h : shortCompress raw = some comp) :
    comp ≠ [] ∧ shortDecode comp = .ok raw := by
  rw [shortCompress] at h
  split_ifs at h
  obtain rfl := Option.some.inj h
  exact ⟨List.cons_ne_nil _ _, rfl⟩

theorem length_shortCompress {raw comp : GoString} (h : shortCompress raw = some comp) :
    comp.length ≤ 0xFFFF := by
  rw [shortCompress] at h
  split_ifs at h with hshort
  obtain rfl := Option.some.inj h
  rw [shortFrame, List.length_append]
  simp only [List.length_cons, List.length_nil]
  omega

end Ingest

end Xsiam
