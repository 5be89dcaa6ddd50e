import Xsiam.Ingest.Sender

/-!
# The rows of a batch

The data of a batch are the rows as text, compressed: `cmd/xlog_sender/main.go` writes a line for each
row, with tabs between the cells, and `decompress` of `internal/ingest/handler.go` reads the lines again.

Behind a line there can be carriage returns, for senders that end their lines in this way, and the reader
cuts them off. It cannot tell them from those that the last cell of a row ends with. So a row loses these
(`Xsiam.Ingest.decompress_tsv`), and rows are read as they were written exactly if none of them ends with
a carriage return (`Xsiam.Ingest.rows_readBack_iff`); inside a row, cells keep theirs.
-/

namespace Xsiam

namespace Ingest

open Go

/-! ### Writing and reading lines -/

/-- The line of a row. -/
def rowLine (row : List GoString) : GoString := join row (str "\t")

/-- The lines of all rows. -/
def tsv (rows : List (List GoString)) : GoString := join (rows.map rowLine) (str "\n") ++ str "\n"

/-- The errors of `decompress`. -/
inductive DecompressError where
  /-- `zstd: %w` -/
  | zstd (err : GoString)
  /-- `orig_size mismatch: declared %d, got %d` -/
  | origSize (declared : UInt32) (got : ℕ)
  deriving DecidableEq

/-- One turn of the loop of `decompress`. -/
def readLine (line : GoString) : Option (List GoString) :=
  let line := trimRight line (str "\r")
  if line = [] then none else some (split line (str "\t"))

/-- `decompress`, with the decoder. -/
def decompress (decodeAll : GoString → Except GoString GoString) (batch : LogBatch) :
    Except DecompressError (List (List GoString)) :=
  match decodeAll batch.compressedTSV with
  | .error err => .error (.zstd err)
  | .ok raw =>
    if 0 < batch.origSize ∧ UInt32.ofNat raw.length ≠ batch.origSize then
      .error (.origSize batch.origSize raw.length)
    else .ok ((split raw (str "\n")).filterMap readLine)

/-- The message of `main` about some rows. -/
def rowsMessage (encodeAll : GoString → GoString) (tag : GoString) (agentID seq tsMs : UInt64)
    (columns : List GoString) (rows : List (List GoString)) : Message where
  tag
  agentID
  seq
  tsMs
  rowCount := UInt32.ofNat rows.length
  origSize := UInt32.ofNat (tsv rows).length
  columns
  compressed := encodeAll (tsv rows)

/-! ### What is read of a row -/

/-- A row that a line can be written for. -/
structure Writable (row : List GoString) : Prop where
  filled : ∃ cell ∈ row, cell ≠ []
  tabless : ∀ cell ∈ row, 0x09 ∉ cell
  unbroken : ∀ cell ∈ row, 0x0A ∉ cell

/-- A row without the carriage returns at its end. -/
def trimRow : List GoString → List GoString
  | [] => []
  | [cell] => [trimRight cell (str "\r")]
  | cell :: cell' :: cells => cell :: trimRow (cell' :: cells)

/-- The last cell of a row ends with a carriage return. -/
def EndsInReturn (row : List GoString) : Prop := ∃ cell ∈ row.getLast?, cell.getLast? = some 0x0D

theorem trimRow_ne_nil {row : List GoString} (h : row ≠ []) : trimRow row ≠ [] := by
  rcases row with _ | ⟨cell, _ | ⟨cell', cells⟩⟩
  · exact absurd rfl h
  · exact List.cons_ne_nil _ _
  · exact List.cons_ne_nil _ _

/-- Nothing is cut off in a line but the end of the last cell. -/
theorem trimRight_rowLine (row : List GoString) :
    trimRight (rowLine row) (str "\r") = rowLine (trimRow row) := by
  induction row with
  | nil => rfl
  | cons cell cells ih =>
    cases cells with
    | nil => rw [trimRow, rowLine, rowLine, join_singleton, join_singleton]
    | cons cell' cells =>
      obtain ⟨next, rest, hnext⟩ := List.exists_cons_of_ne_nil (trimRow_ne_nil (List.cons_ne_nil cell' cells))
      rw [rowLine] at ih
      rw [trimRow, rowLine, rowLine, join_cons_cons, show str "\t" = [0x09] from rfl,
        List.singleton_append, trimRight_append_cons (by decide), ← show str "\t" = [0x09] from rfl, ih,
        hnext, rowLine, join_cons_cons]
      rfl

theorem tabless_trimRow {row : List GoString} (h : ∀ cell ∈ row, 0x09 ∉ cell) :
    ∀ cell ∈ trimRow row, 0x09 ∉ cell := by
  induction row with
  | nil => exact h
  | cons cell cells ih =>
    obtain ⟨hcell, hcells⟩ := List.forall_mem_cons.mp h
    cases cells with
    | nil => exact List.forall_mem_singleton.mpr fun htab => hcell (trimRight_subset _ _ htab)
    | cons cell' cells => exact List.forall_mem_cons.mpr ⟨hcell, ih hcells⟩

/-- A row that is left as it is. -/
theorem trimRow_eq_self_iff (row : List GoString) : trimRow row = row ↔ ¬EndsInReturn row := by
  induction row with
  | nil => exact iff_of_true rfl (by simp [EndsInReturn])
  | cons cell cells ih =>
    cases cells with
    | nil =>
      have hone : trimRow [cell] = [cell] ↔ trimRight cell (str "\r") = cell := by
        rw [trimRow, List.cons.injEq]
        exact and_iff_left rfl
      rw [hone, trimRight_eq_self_iff, EndsInReturn, show str "\r" = [0x0D] from rfl]
      simp only [List.getLast?_singleton, Option.mem_def, List.mem_singleton]
      constructor
      · rintro h ⟨last, hcell, hlast⟩
        obtain rfl := Option.some.inj hcell
        exact h _ hlast rfl
      · rintro h b hlast rfl
        exact h ⟨cell, rfl, hlast⟩
    | cons cell' cells =>
      rw [trimRow, List.cons.injEq, ih, EndsInReturn, EndsInReturn, List.getLast?_cons_cons]
      exact and_iff_right rfl

/-- A line that nothing is left of. -/
theorem rowLine_eq_nil_iff {row : List GoString} (h : row ≠ []) : rowLine row = [] ↔ row = [[]] := by
  rcases row with _ | ⟨cell, _ | ⟨cell', cells⟩⟩
  · exact absurd rfl h
  · rw [rowLine, join_singleton, List.cons.injEq]
    exact (and_iff_left rfl).symm
  · rw [rowLine, join_cons_cons]
    refine iff_of_false ?_ (by simp)
    exact List.append_ne_nil_of_right_ne_nil _ (List.append_ne_nil_of_left_ne_nil (by decide) _)

/-- **What is read of the line of a row.** -/
theorem readLine_rowLine {row : List GoString} (hne : row ≠ []) (htab : ∀ cell ∈ row, 0x09 ∉ cell) :
    readLine (rowLine row) = if trimRow row = [[]] then none else some (trimRow row) := by
  have hsplit : split (rowLine (trimRow row)) (str "\t") = trimRow row :=
    split_join (trimRow_ne_nil hne) (tabless_trimRow htab)
  rw [readLine]
  simp only [trimRight_rowLine, rowLine_eq_nil_iff (trimRow_ne_nil hne), hsplit]

/-- The lines of a text, and the empty one behind the last of them. -/
theorem split_lines {lines : List GoString} (hne : lines ≠ []) (h : ∀ line ∈ lines, 0x0A ∉ line) :
    split (join lines (str "\n") ++ str "\n") (str "\n") = lines ++ [[]] := by
  induction lines with
  | nil => exact absurd rfl hne
  | cons line lines ih =>
    obtain ⟨hline, hrest⟩ := List.forall_mem_cons.mp h
    cases lines with
    | nil => rw [join_singleton, show str "\n" = [0x0A] from rfl, split_append_cons hline]; rfl
    | cons line' lines =>
      have hih := ih (List.cons_ne_nil line' lines) hrest
      rw [join_cons_cons, List.append_assoc, List.append_assoc]
      rw [show str "\n" = [0x0A] from rfl] at hih ⊢
      rw [List.singleton_append, split_append_cons hline, hih]
      rfl

theorem Writable.ne_nil {row : List GoString} (h : Writable row) : row ≠ [] := by
  obtain ⟨cell, hcell, -⟩ := h.filled
  exact List.ne_nil_of_mem hcell

theorem Writable.unbroken_rowLine {row : List GoString} (h : Writable row) : 0x0A ∉ rowLine row := by
  intro hbreak
  rcases mem_join hbreak with hsep | ⟨cell, hcell, hmem⟩
  · exact absurd hsep (by decide)
  · exact h.unbroken cell hcell hmem

/-- **What is read of the lines of all rows.** -/
theorem filterMap_readLine_tsv {rows : List (List GoString)} (h : ∀ row ∈ rows, Writable row) :
    (split (tsv rows) (str "\n")).filterMap readLine =
      (rows.map trimRow).filter fun row => row ≠ [[]] := by
  rcases eq_or_ne rows [] with rfl | hne
  · -- there is nothing but the end of a line
    decide
  · have hlines : ∀ line ∈ rows.map rowLine, 0x0A ∉ line :=
      List.forall_mem_map.mpr fun row hrow => (h row hrow).unbroken_rowLine
    have hempty : readLine [] = none := by decide
    -- a row that nothing is left of is not read, and neither is the line behind the last one
    have hread : ∀ rows : List (List GoString), (∀ row ∈ rows, Writable row) →
        (rows.map rowLine).filterMap readLine = (rows.map trimRow).filter fun row => row ≠ [[]] := by
      intro rows h
      induction rows with
      | nil => rfl
      | cons row rows ih =>
        obtain ⟨hrow, hrows⟩ := List.forall_mem_cons.mp h
        rw [List.map_cons, List.map_cons, List.filterMap_cons,
          readLine_rowLine hrow.ne_nil hrow.tabless, List.filter_cons, ih hrows]
        by_cases htrim : trimRow row = [[]]
        · simp [htrim]
        · simp [htrim]
    rw [tsv, split_lines (List.map_eq_nil_iff.not.mpr hne) hlines, List.filterMap_append, hread rows h,
      List.filterMap_cons, hempty]
    exact List.append_nil _

/-! ### What is read of a batch -/

section Batch

variable {encodeAll : GoString → GoString} {decodeAll : GoString → Except GoString GoString}
  {rows : List (List GoString)} {batch : LogBatch}

/-- **Rows are read without the carriage returns at their ends**, and a row that has nothing else is not
read at all. -/
theorem decompress_tsv (hzstd : decodeAll (encodeAll (tsv rows)) = .ok (tsv rows))
    (hrows : ∀ row ∈ rows, Writable row) (hdata : batch.compressedTSV = encodeAll (tsv rows))
    (hsize : batch.origSize.toNat = (tsv rows).length) :
    decompress decodeAll batch = .ok ((rows.map trimRow).filter fun row => row ≠ [[]]) := by
  have htrue : UInt32.ofNat (tsv rows).length = batch.origSize := by
    rw [← hsize, UInt32.ofNat_toNat]
  rw [decompress, hdata, hzstd]
  dsimp only
  rw [if_neg fun h => h.2 htrue, filterMap_readLine_tsv hrows]

/-- **Any other size is rejected**, but for that of zero, which is none. -/
theorem decompress_wrong_size (hzstd : decodeAll (encodeAll (tsv rows)) = .ok (tsv rows))
    (hdata : batch.compressedTSV = encodeAll (tsv rows)) (hlen : (tsv rows).length < 2 ^ 32)
    (hzero : batch.origSize ≠ 0) (hsize : batch.origSize.toNat ≠ (tsv rows).length) :
    decompress decodeAll batch = .error (.origSize batch.origSize (tsv rows).length) := by
  have hpos : 0 < batch.origSize := UInt32.pos_iff_ne_zero.mpr hzero
  have hwrong : UInt32.ofNat (tsv rows).length ≠ batch.origSize := by
    rintro heq
    rw [← heq, UInt32.toNat_ofNat_of_lt' hlen] at hsize
    exact hsize rfl
  rw [decompress, hdata, hzstd]
  exact if_pos ⟨hpos, hwrong⟩

/-- What is left of a list is the list only if nothing was changed and nothing left out. -/
theorem filter_map_eq_self_iff {α : Type} {f : α → α} {p : α → Bool} {l : List α} :
    (l.map f).filter p = l ↔ ∀ a ∈ l, f a = a ∧ p a = true := by
  constructor
  · intro h
    have hlen : ((l.map f).filter p).length = (l.map f).length := by rw [h, List.length_map]
    have hall := List.length_filter_eq_length_iff.mp hlen
    have hmap : l.map f = l := by rw [← List.filter_eq_self.mpr hall, h]
    have hid : l.map f = l.map id := hmap.trans l.map_id.symm
    intro a ha
    have hfa : f a = a := List.map_inj_left.mp hid a ha
    exact ⟨hfa, hfa ▸ hall (f a) (List.mem_map_of_mem ha)⟩
  · intro h
    have hmap : l.map f = l := (List.map_congr_left fun a ha => (h a ha).1).trans l.map_id
    rw [hmap, List.filter_eq_self]
    exact fun a ha => (h a ha).2

/-- The rows are read as they were written, and with no other size than their own. -/
structure ReadsBack (encodeAll : GoString → GoString) (decodeAll : GoString → Except GoString GoString)
    (rows : List (List GoString)) : Prop where
  same : ∀ batch : LogBatch, batch.compressedTSV = encodeAll (tsv rows) →
    batch.origSize.toNat = (tsv rows).length → decompress decodeAll batch = .ok rows
  rejected : ∀ batch : LogBatch, batch.compressedTSV = encodeAll (tsv rows) → batch.origSize ≠ 0 →
    batch.origSize.toNat ≠ (tsv rows).length → ∃ err, decompress decodeAll batch = .error err

/-- What is left of the rows are the rows, if none of them ends with a carriage return. -/
theorem map_trimRow_eq_self_iff (hrows : ∀ row ∈ rows, Writable row) :
    ((rows.map trimRow).filter fun row => row ≠ [[]]) = rows ↔ ∀ row ∈ rows, ¬EndsInReturn row := by
  have hfilled : ∀ row ∈ rows, row ≠ [[]] := by
    rintro row hrow rfl
    obtain ⟨cell, hcell, hne⟩ := (hrows _ hrow).filled
    exact hne (List.mem_singleton.mp hcell)
  rw [filter_map_eq_self_iff]
  refine forall₂_congr fun row hrow => ?_
  rw [trimRow_eq_self_iff]
  exact and_iff_left (decide_eq_true (hfilled row hrow))

/-- **Rows are read as they were written exactly if none of them ends with a carriage return**, whatever
their cells are besides. -/
theorem rows_readBack_iff (hzstd : decodeAll (encodeAll (tsv rows)) = .ok (tsv rows))
    (hrows : ∀ row ∈ rows, Writable row) (hlen : (tsv rows).length < 2 ^ 32) :
    ReadsBack encodeAll decodeAll rows ↔ ∀ row ∈ rows, ¬EndsInReturn row := by
  have hself := map_trimRow_eq_self_iff hrows
  constructor
  · intro h
    have hsize : (UInt32.ofNat (tsv rows).length).toNat = (tsv rows).length :=
      UInt32.toNat_ofNat_of_lt' hlen
    -- a batch with the right size is read, so the rows are those without their ends
    have hread := h.same { origSize := UInt32.ofNat (tsv rows).length, compressedTSV := encodeAll (tsv rows) }
      rfl hsize
    rw [decompress_tsv hzstd hrows rfl hsize] at hread
    exact hself.mp (Except.ok.inj hread)
  · intro h
    refine ⟨fun batch hdata hsize => ?_, fun batch hdata hzero hsize => ?_⟩
    · rw [decompress_tsv hzstd hrows hdata hsize, hself.mpr h]
    · exact ⟨_, decompress_wrong_size hzstd hdata hlen hzero hsize⟩

end Batch

/-- The frames that zstd makes of two texts, which are too short to be compressed. -/
def smallFrames : List (GoString × GoString) :=
  [(str "a\r\tb\t\n", [0x28, 0xB5, 0x2F, 0xFD, 0x24, 0x06, 0x31, 0x00, 0x00, 0x61, 0x0D, 0x09, 0x62, 0x09,
      0x0A, 0xFA, 0x47, 0xC2, 0x02]),
    (str "a\r\n", [0x28, 0xB5, 0x2F, 0xFD, 0x24, 0x03, 0x19, 0x00, 0x00, 0x61, 0x0D, 0x0A, 0xAC, 0x00,
      0x3A, 0x97])]

/-- An encoder of these texts. -/
def smallEncoder (raw : GoString) : GoString := (smallFrames.lookup raw).getD []

/-- A decoder of these frames. -/
def smallDecoder (frame : GoString) : Except GoString GoString :=
  match smallFrames.find? fun p => p.2 = frame with
  | some p => .ok p.1
  | none => .error (str "invalid input: magic number mismatch")

/-- A carriage return inside a row, and an empty cell at its end. -/
theorem readsBack_small : ReadsBack smallEncoder smallDecoder [[str "a\r", str "b", []]] :=
  (rows_readBack_iff (by decide +kernel)
    (List.forall_mem_singleton.mpr ⟨⟨str "b", by decide, by decide⟩, by decide, by decide⟩)
    (by decide +kernel)).mpr (List.forall_mem_singleton.mpr (by
      rintro ⟨cell, hcell, hlast⟩
      obtain rfl := Option.some.inj hcell
      exact absurd hlast (by decide)))

/-- The carriage return of a cell at the end of a row is lost. -/
theorem not_readsBack :
    (∀ row ∈ [[str "a\r"]], Writable row) ∧
    smallDecoder (smallEncoder (tsv [[str "a\r"]])) = .ok (tsv [[str "a\r"]]) ∧
    ¬ReadsBack smallEncoder smallDecoder [[str "a\r"]] := by
  refine ⟨List.forall_mem_singleton.mpr ⟨⟨str "a\r", by decide, by decide⟩, by decide, by decide⟩,
    by decide +kernel, fun h => ?_⟩
  have hread := h.same { origSize := 3, compressedTSV := smallEncoder (tsv [[str "a\r"]]) } rfl
    (by decide +kernel)
  exact absurd hread (by decide +kernel)

/-- **Rows arrive that are sent**: what the handler reads of a message that is carried are its rows, if
none of them ends with a carriage return. -/
theorem decompress_rowsMessage {encodeAll : GoString → GoString}
    {decodeAll : GoString → Except GoString GoString} {rows : List (List GoString)} {tag : GoString}
    {agentID seq tsMs : UInt64} {columns : List GoString}
    (hzstd : decodeAll (encodeAll (tsv rows)) = .ok (tsv rows)) (hrows : ∀ row ∈ rows, Writable row)
    (hlen : (tsv rows).length < 2 ^ 32) (hends : ∀ row ∈ rows, ¬EndsInReturn row)
    (hcarried : (rowsMessage encodeAll tag agentID seq tsMs columns rows).Carried) :
    ∃ hdr batch, receive ((rowsMessage encodeAll tag agentID seq tsMs columns rows).payload
        (rowsMessage encodeAll tag agentID seq tsMs columns rows).body) = .ok (hdr, batch) ∧
      decompress decodeAll batch = .ok rows := by
  obtain ⟨hdr, hreceive, -⟩ := hcarried.survives
  refine ⟨hdr, _, hreceive, ?_⟩
  rw [decompress_tsv hzstd hrows rfl (UInt32.toNat_ofNat_of_lt' hlen),
    (map_trimRow_eq_self_iff hrows).mpr hends]

end Ingest

end Xsiam
