import Xsiam.Ingest.Frame

/-!
# The body of a batch

`internal/ingest/tlv.go`: the body of a frame is a sequence of fields, each a tag, a length
of two bytes and that many bytes. Decoder and encoder of such sequences are inverse
(`Xsiam.Ingest.decodeTLVs_eq_ok`).

A batch is five of these fields. A field that comes more than once counts the last time,
and a field that is not known does not count.
-/

namespace Xsiam

namespace Ingest

open Go Codec

/-! ### Fields -/

/-- `TLV` -/
structure TLV where
  tag : UInt8
  value : GoString
  deriving DecidableEq

/-- The errors of `DecodeTLVs`. -/
inductive TLVError where
  /-- `truncated header (need 3, have %d)` -/
  | truncatedHeader (have_ : ℕ)
  /-- `tag 0x%02X length %d exceeds body remainder %d` -/
  | exceedsBody (tag : UInt8) (length : UInt16) (remainder : ℕ)
  deriving DecidableEq

/-- One turn of the loop of `DecodeTLVs`, on what is left of the body. -/
def decodeTLV (body : GoString) : Except TLVError (TLV × GoString) :=
  match body with
  | tag :: hi :: lo :: body =>
    let length := word16 [hi, lo]
    if body.length < length.toNat then .error (.exceedsBody tag length body.length)
    else .ok (⟨tag, body.take length.toNat⟩, body.drop length.toNat)
  | _ => .error (.truncatedHeader body.length)

/-- The error of `EncodeTLV`: the length of a value that is too long. -/
structure EncodeError where
  length : ℕ

/-- `EncodeTLV`, onto what has been written before. -/
def encodeTLV (w : GoString) (tag : UInt8) (value : GoString) : Except EncodeError GoString :=
  if 0xFFFF < value.length then .error ⟨value.length⟩
  else .ok (w ++ [tag, UInt8.ofNat (value.length / 256), UInt8.ofNat value.length] ++ value)

/-- Fields encoded one after the other, up to the first that fails. -/
def encodeTLVs (ts : List TLV) : Except EncodeError GoString :=
  ts.foldlM (fun w t => encodeTLV w t.tag t.value) []

/-- The bytes of a field, its length cut to two bytes. -/
def tlvBytes (t : TLV) : GoString :=
  [t.tag, UInt8.ofNat (t.value.length / 256), UInt8.ofNat t.value.length] ++ t.value

/-! ### Exactness -/

/-- A field whose length fits. -/
def TLV.Fits (t : TLV) : Prop := t.value.length < 2 ^ 16

theorem be16_length {t : TLV} (h : t.Fits) :
    be16 (UInt16.ofNat t.value.length) =
      [UInt8.ofNat (t.value.length / 256), UInt8.ofNat t.value.length] := by
  rw [be16, UInt16.toNat_ofNat_of_lt' h]
  rfl

/-- **One field is decoded as it was encoded**, and nothing else is accepted. -/
theorem exact_tlv : Exact TLV.Fits tlvBytes decodeTLV := by
  rintro bs ⟨tag, value⟩ rest
  constructor
  · intro hread
    rcases bs with _ | ⟨tag', _ | ⟨hi, _ | ⟨lo, body⟩⟩⟩
    · exact absurd hread (by simp [decodeTLV])
    · exact absurd hread (by simp [decodeTLV])
    · exact absurd hread (by simp [decodeTLV])
    rw [decodeTLV] at hread
    split_ifs at hread with hlen
    obtain ⟨htlv, rfl⟩ := Prod.mk.inj (Except.ok.inj hread)
    obtain ⟨rfl, rfl⟩ := TLV.mk.inj htlv
    have hvalue : (body.take (word16 [hi, lo]).toNat).length = (word16 [hi, lo]).toNat :=
      List.length_take_of_le (by omega)
    have hfits : TLV.Fits ⟨tag', body.take (word16 [hi, lo]).toNat⟩ := by
      rw [TLV.Fits, hvalue]
      exact UInt16.toNat_lt _
    refine ⟨hfits, ?_⟩
    -- the two bytes of the length are those that were read
    have hword := be16_length hfits
    rw [hvalue, UInt16.ofNat_toNat, be16_word16 rfl] at hword
    rw [tlvBytes, hvalue, List.append_assoc, List.take_append_drop, List.cons_append, ← hword]
    rfl
  · rintro ⟨hfits, rfl⟩
    have hword : word16 [UInt8.ofNat (value.length / 256), UInt8.ofNat value.length] =
        UInt16.ofNat value.length := by
      rw [← be16_length hfits, word16_be16]
    have hlen : (UInt16.ofNat value.length).toNat = value.length := UInt16.toNat_ofNat_of_lt' hfits
    rw [tlvBytes, List.append_assoc]
    change decodeTLV (tag :: UInt8.ofNat (value.length / 256) :: UInt8.ofNat value.length ::
      (value ++ rest)) = _
    rw [decodeTLV, hword, hlen, if_neg (by simp), List.take_left, List.drop_left]

/-- The reader of fields. -/
def tlvReader : Reader UInt8 TLVError TLV where
  run := decodeTLV
  shorter := by
    intro bs t rest h
    obtain ⟨-, rfl⟩ := (exact_tlv _ _ _).mp h
    simp only [tlvBytes, List.length_append, List.length_cons, List.length_nil]
    omega

/-- `DecodeTLVs` -/
def decodeTLVs (body : GoString) : Except TLVError (List TLV) := tlvReader.readAll body

/-- Fields that fit are encoded one after the other. -/
theorem encodeTLVs_eq_ok {ts : List TLV} {bs : GoString} :
    encodeTLVs ts = .ok bs ↔ (∀ t ∈ ts, t.Fits) ∧ bs = ts.flatMap tlvBytes := by
  have hfold : ∀ w : GoString, ts.foldlM (fun w t => encodeTLV w t.tag t.value) w = .ok bs ↔
      (∀ t ∈ ts, t.Fits) ∧ bs = w ++ ts.flatMap tlvBytes := by
    induction ts with
    | nil =>
      intro w
      simp [pure, Except.pure, eq_comm]
    | cons t ts ih =>
      intro w
      rw [List.foldlM_cons, List.forall_mem_cons, List.flatMap_cons]
      by_cases hfits : t.Fits
      · have hle : ¬0xFFFF < t.value.length := by
          rw [TLV.Fits] at hfits
          omega
        rw [encodeTLV, if_neg hle]
        change ts.foldlM _ _ = _ ↔ _
        rw [ih, tlvBytes]
        simp [hfits]
      · have hlt : 0xFFFF < t.value.length := by
          rw [TLV.Fits] at hfits
          omega
        rw [encodeTLV, if_pos hlt]
        simp [hfits, bind, Except.bind]
  rw [encodeTLVs, hfold, List.nil_append]

/-- **Framing of fields is exact**: what is decoded is what was encoded, to the last
byte. -/
theorem decodeTLVs_eq_ok (b : GoString) (ts : List TLV) :
    decodeTLVs b = .ok ts ↔ (∀ t ∈ ts, t.value.length < 2 ^ 16) ∧ encodeTLVs ts = .ok b := by
  rw [encodeTLVs_eq_ok]
  refine (Reader.readAll_eq_ok exact_tlv).trans ⟨fun h => ⟨h.1, h⟩, And.right⟩

/-! ### Batches -/

/-- `TagSchemaVersion` -/
def tagSchemaVersion : UInt8 := 0x01

/-- `TagRowCount` -/
def tagRowCount : UInt8 := 0x02

/-- `TagOrigSize` -/
def tagOrigSize : UInt8 := 0x03

/-- `TagColumns` -/
def tagColumns : UInt8 := 0x04

/-- `TagData` -/
def tagData : UInt8 := 0x10

/-- `LogBatch` -/
structure LogBatch where
  schemaVersion : UInt16 := 0
  rowCount : UInt32 := 0
  origSize : UInt32 := 0
  columns : List GoString := []
  compressedTSV : GoString := []
  deriving DecidableEq

/-- The errors of `DecodeBatch`. -/
inductive BatchError where
  | tlv (err : TLVError)
  /-- `tag 0x%02x too short` -/
  | tooShort (tag : UInt8)
  /-- `missing TagData (0x10) in batch body` -/
  | missingTagData
  deriving DecidableEq

/-- The loop of `splitColumns`, with what there is of the current name. -/
def splitColumnsLoop : GoString → GoString → List GoString
  | [], cur => [cur]
  | c :: b, cur => if c = 0x2C then cur :: splitColumnsLoop b [] else splitColumnsLoop b (cur ++ [c])

/-- `splitColumns` -/
def splitColumns (b : GoString) : List GoString := if b = [] then [] else splitColumnsLoop b []

/-- One turn of the loop of `DecodeBatch`. -/
def decodeField (b : LogBatch) (t : TLV) : Except BatchError LogBatch :=
  if t.tag = tagSchemaVersion then
    if t.value.length < 2 then .error (.tooShort t.tag)
    else .ok { b with schemaVersion := word16 (t.value.take 2) }
  else if t.tag = tagRowCount then
    if t.value.length < 4 then .error (.tooShort t.tag)
    else .ok { b with rowCount := word32 (t.value.take 4) }
  else if t.tag = tagOrigSize then
    if t.value.length < 4 then .error (.tooShort t.tag)
    else .ok { b with origSize := word32 (t.value.take 4) }
  else if t.tag = tagColumns then .ok { b with columns := splitColumns t.value }
  else if t.tag = tagData then .ok { b with compressedTSV := t.value }
  else .ok b

/-- The loop of `DecodeBatch`. -/
def decodeFields : LogBatch → List TLV → Except BatchError LogBatch
  | b, [] => .ok b
  | b, t :: ts =>
    match decodeField b t with
    | .error e => .error e
    | .ok b => decodeFields b ts

/-- `DecodeBatch` -/
def decodeBatch (body : GoString) : Except BatchError LogBatch :=
  match decodeTLVs body with
  | .error e => .error (.tlv e)
  | .ok ts =>
    match decodeFields {} ts with
    | .error e => .error e
    | .ok b => if b.compressedTSV = [] then .error .missingTagData else .ok b

/-! ### Column names -/

theorem splitColumnsLoop_ne_nil (b : GoString) : ∀ cur : GoString, splitColumnsLoop b cur ≠ [] := by
  induction b with
  | nil => exact fun cur => List.cons_ne_nil _ _
  | cons c b ih =>
    intro cur
    rw [splitColumnsLoop]
    split_ifs
    · exact List.cons_ne_nil _ _
    · exact ih _

/-- The names give the text back, with commas between them. -/
theorem join_splitColumnsLoop (b : GoString) : ∀ cur : GoString,
    join (splitColumnsLoop b cur) [0x2C] = cur ++ b := by
  induction b with
  | nil =>
    intro cur
    simp [splitColumnsLoop]
  | cons c b ih =>
    intro cur
    rw [splitColumnsLoop]
    split_ifs with hc
    · obtain ⟨p, ps, hps⟩ := List.exists_cons_of_ne_nil (splitColumnsLoop_ne_nil b [])
      have hrest := ih []
      rw [hps] at hrest ⊢
      rw [join_cons_cons, hrest, hc]
      rfl
    · rw [ih, List.append_assoc, List.singleton_append]

theorem join_splitColumns (b : GoString) : join (splitColumns b) [0x2C] = b := by
  rw [splitColumns]
  split_ifs with hb
  · rw [hb]
    rfl
  · exact join_splitColumnsLoop b []

/-- No name has a comma. -/
theorem comma_notMem_splitColumnsLoop (b : GoString) : ∀ cur : GoString, 0x2C ∉ cur →
    ∀ col ∈ splitColumnsLoop b cur, 0x2C ∉ col := by
  induction b with
  | nil =>
    intro cur hcur col hcol
    rw [List.mem_singleton.mp hcol]
    exact hcur
  | cons c b ih =>
    intro cur hcur
    rw [splitColumnsLoop]
    split_ifs with hc
    · exact List.forall_mem_cons.mpr ⟨hcur, ih [] List.not_mem_nil⟩
    · refine ih _ fun hmem => ?_
      rcases List.mem_append.mp hmem with hmem | hmem
      · exact hcur hmem
      · exact hc (List.mem_singleton.mp hmem).symm

/-- A name without a comma is read as a whole. -/
theorem splitColumnsLoop_append {col : GoString} (hcol : 0x2C ∉ col) (b : GoString) :
    ∀ cur : GoString, splitColumnsLoop (col ++ b) cur = splitColumnsLoop b (cur ++ col) := by
  induction col with
  | nil =>
    intro cur
    rw [List.nil_append, List.append_nil]
  | cons c col ih =>
    intro cur
    rw [List.mem_cons, not_or] at hcol
    rw [List.cons_append, splitColumnsLoop, if_neg (Ne.symm hcol.1), ih hcol.2, List.append_assoc,
      List.singleton_append]

theorem splitColumnsLoop_join {cols : List GoString} (hne : cols ≠ [])
    (h : ∀ col ∈ cols, 0x2C ∉ col) : splitColumnsLoop (join cols [0x2C]) [] = cols := by
  induction cols with
  | nil => exact absurd rfl hne
  | cons col cols ih =>
    obtain ⟨hcol, hcols⟩ := List.forall_mem_cons.mp h
    rcases cols with _ | ⟨col', cols⟩
    · rw [join_singleton, ← col.append_nil, splitColumnsLoop_append hcol]
      simp [splitColumnsLoop]
    · rw [join_cons_cons, List.singleton_append, splitColumnsLoop_append hcol, splitColumnsLoop,
        if_pos rfl, ih (List.cons_ne_nil _ _) hcols, List.nil_append]

/-- **Which lists of names are read back**: those whose names have no commas, but for the
list of one name that is empty. -/
theorem splitColumns_join_iff (cols : List GoString) :
    splitColumns (join cols [0x2C]) = cols ↔ (∀ col ∈ cols, 0x2C ∉ col) ∧ cols ≠ [[]] := by
  constructor
  · intro h
    constructor
    · rw [← h, splitColumns]
      split_ifs
      · exact fun col hcol => absurd hcol List.not_mem_nil
      · exact comma_notMem_splitColumnsLoop _ [] List.not_mem_nil
    · rintro rfl
      exact absurd h (by decide)
  · rintro ⟨hcomma, hne⟩
    rw [splitColumns]
    split_ifs with hnil
    · -- only the empty list and the list of an empty name are written as nothing
      rcases cols with _ | ⟨col, cols⟩
      · rfl
      · have hsplit := splitColumnsLoop_join (List.cons_ne_nil col cols) hcomma
        rw [hnil] at hsplit
        exact absurd hsplit.symm hne
    · refine splitColumnsLoop_join ?_ hcomma
      rintro rfl
      exact hnil rfl

end Ingest

end Xsiam
