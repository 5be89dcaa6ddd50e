import Xsiam.Go.Unicode

/-!
# Package `encoding/csv`

What a `csv.Writer` writes for a record and what a `csv.Reader` reads first, both with a comma and
no other option. The reader takes `"\r\n"` for `"\n"` at the end of any line, also inside quotes,
and passes over empty lines; so what it reads back from a written record are the fields with these
line ends (`Xsiam.Go.Csv.read_row`), unless there is nothing to read: the record of one empty
field is an empty line.
-/

namespace Xsiam

namespace Go

namespace Csv

/-! ### Writing -/

/-- `Writer.fieldNeedsQuotes` -/
def fieldNeedsQuotes (field : GoString) : Bool :=
  field ≠ [] && (field = str "\\." ||
    field.any (fun b => b = 0x0A || b = 0x0D || b = 0x22 || b = 0x2C) ||
    spaces.any (·.isPrefixOf field))

/-- A field between quotes: each quote of it is written twice. -/
def doubled (field : GoString) : GoString :=
  field.flatMap fun b => if b = 0x22 then [0x22, 0x22] else [b]

/-- A field as it is written. -/
def writeField (field : GoString) : GoString :=
  if fieldNeedsQuotes field then 0x22 :: (doubled field ++ [0x22]) else field

/-- The fields of a record, without the end of the line. -/
def row (record : List GoString) : GoString := join (record.map writeField) [0x2C]

/-- `Writer.Write`, and `Flush`. -/
def write (record : List GoString) : GoString := row record ++ [0x0A]

/-! ### Reading -/

/-- The text with `"\n"` for every `"\r\n"`. -/
def lineEnds : GoString → GoString
  | [] => []
  | b :: bs => if b = 0x0D ∧ bs.head? = some 0x0A then lineEnds bs else b :: lineEnds bs

/-- The text without a carriage return at its very end. -/
def withoutCR (s : GoString) : GoString := if s.getLast? = some 0x0D then s.dropLast else s

/-- Where the reader is: in a field without quotes, in one with quotes, or behind a quote in one. -/
inductive Mode where
  | plain
  | quoted
  | closing
  deriving DecidableEq

/-- The record behind what has been read of a field. `none` is a parse error. -/
def scan : Mode → GoString → GoString → Option (List GoString)
  | .plain, field, [] => some [field]
  | .quoted, _, [] => none
  | .closing, field, [] => some [field]
  | .plain, field, b :: bs =>
    if b = 0x2C then (scan .plain [] bs).map (field :: ·)
    else if b = 0x0A then some [field]
    else if b = 0x22 then if field = [] then scan .quoted [] bs else none
    else scan .plain (field ++ [b]) bs
  | .quoted, field, b :: bs =>
    if b = 0x22 then scan .closing field bs else scan .quoted (field ++ [b]) bs
  | .closing, field, b :: bs =>
    if b = 0x22 then scan .quoted (field ++ [b]) bs
    else if b = 0x2C then (scan .plain [] bs).map (field :: ·)
    else if b = 0x0A then some [field]
    else none

/-- `Reader.Read`, the first time: empty lines are passed over. -/
def read (s : GoString) : Option (List GoString) :=
  match (lineEnds (withoutCR s)).dropWhile (· = 0x0A) with
  | [] => none
  | text => scan .plain [] text

/-! ### Line ends -/

theorem lineEnds_append {b : UInt8} (hb : b ≠ 0x0A) (s t : GoString) :
    lineEnds (s ++ b :: t) = lineEnds s ++ lineEnds (b :: t) := by
  induction s with
  | nil => rfl
  | cons c s ih =>
    have hhead : (s ++ b :: t).head? = some 0x0A ↔ s.head? = some 0x0A := by
      cases s with
      | nil => simp [hb]
      | cons d s => rfl
    rw [List.cons_append, lineEnds, lineEnds, ih]
    simp only [hhead]
    split_ifs <;> rfl

theorem lineEnds_cons {b : UInt8} (hb : b ≠ 0x0D) (s : GoString) :
    lineEnds (b :: s) = b :: lineEnds s := by
  rw [lineEnds, if_neg (fun h => hb h.1)]

theorem lineEnds_of_notMem {s : GoString} (h : 0x0D ∉ s) : lineEnds s = s := by
  induction s with
  | nil => rfl
  | cons b s ih =>
    obtain ⟨hb, hs⟩ := List.ne_and_not_mem_of_not_mem_cons h
    rw [lineEnds_cons (Ne.symm hb), ih hs]

theorem length_lineEnds_le (s : GoString) : (lineEnds s).length ≤ s.length := by
  induction s with
  | nil => exact le_rfl
  | cons b s ih =>
    rw [lineEnds]
    split_ifs
    · exact ih.trans (Nat.le_succ _)
    · exact Nat.succ_le_succ ih

/-- **Only `"\r\n"` is read as something else.** -/
theorem lineEnds_eq_self_iff {s : GoString} : lineEnds s = s ↔ ¬[0x0D, 0x0A] <:+: s := by
  induction s with
  | nil => simp [lineEnds]
  | cons b s ih =>
    have hhead : [0x0D, 0x0A] <+: b :: s ↔ b = 0x0D ∧ s.head? = some 0x0A := by
      cases s with
      | nil => simp
      | cons c s => simp [eq_comm]
    rw [lineEnds, List.infix_cons_iff, hhead]
    split_ifs with hcrlf
    · refine iff_of_false (fun h => ?_) (fun h => h (.inl hcrlf))
      have hlen := length_lineEnds_le s
      rw [h, List.length_cons] at hlen
      omega
    · rw [List.cons.injEq, ih]
      tauto

theorem doubled_cons (b : UInt8) (s : GoString) :
    doubled (b :: s) = if b = 0x22 then 0x22 :: 0x22 :: doubled s else b :: doubled s := by
  rw [doubled, List.flatMap_cons]
  split_ifs <;> rfl

theorem lineEnds_doubled (s : GoString) : lineEnds (doubled s) = doubled (lineEnds s) := by
  induction s with
  | nil => rfl
  | cons b s ih =>
    have hhead : (doubled s).head? = some 0x0A ↔ s.head? = some 0x0A := by
      cases s with
      | nil => rfl
      | cons c s =>
        rw [doubled_cons]
        split_ifs with hc
        · simp [hc]
        · rfl
    rw [doubled_cons]
    split_ifs with hb
    · subst hb
      rw [lineEnds_cons (by decide), lineEnds_cons (by decide), lineEnds_cons (by decide), ih,
        doubled_cons, if_pos rfl]
    · rw [lineEnds, lineEnds, ih]
      simp only [hhead]
      split_ifs
      · rfl
      · rw [doubled_cons, if_neg hb]

/-! ### What is written is read -/

/-- A field is written as it is, and has none of the characters that mean something to the reader,
or it is written between quotes. -/
theorem writeField_cases (field : GoString) :
    (writeField field = field ∧ ∀ b ∈ field, b ≠ 0x0A ∧ b ≠ 0x0D ∧ b ≠ 0x22 ∧ b ≠ 0x2C) ∨
      writeField field = 0x22 :: (doubled field ++ [0x22]) := by
  rw [writeField]
  split_ifs with hquotes
  · exact .inr rfl
  · refine .inl ⟨rfl, fun b hb => ?_⟩
    have hne : field ≠ [] := List.ne_nil_of_mem hb
    simp only [fieldNeedsQuotes, hne, ne_eq, not_false_eq_true, decide_true, Bool.true_and,
      Bool.or_eq_true, not_or, List.any_eq_true, not_exists, not_and] at hquotes
    have hplain := hquotes.1.2 b hb
    simpa [and_assoc] using hplain

/-- The reader takes plain characters as they are. -/
theorem scan_plain (t : GoString) {s : GoString}
    (hs : ∀ b ∈ s, b ≠ 0x0A ∧ b ≠ 0x0D ∧ b ≠ 0x22 ∧ b ≠ 0x2C) :
    ∀ field, scan .plain field (s ++ t) = scan .plain (field ++ s) t := by
  induction s with
  | nil => intro field; rw [List.append_nil, List.nil_append]
  | cons b s ih =>
    intro field
    obtain ⟨⟨hnl, -, hquote, hcomma⟩, hrest⟩ := List.forall_mem_cons.mp hs
    rw [List.cons_append, scan, if_neg hcomma, if_neg hnl, if_neg hquote, ih hrest,
      List.append_assoc]
    rfl

/-- Between quotes it takes any, and a doubled quote for one. -/
theorem scan_doubled (s t : GoString) :
    ∀ field, scan .quoted field (doubled s ++ 0x22 :: t) = scan .closing (field ++ s) t := by
  induction s with
  | nil => intro field; rw [List.append_nil]; rfl
  | cons b s ih =>
    intro field
    have happend : field ++ b :: s = (field ++ [b]) ++ s := by rw [List.append_assoc]; rfl
    rw [doubled_cons, happend, ← ih]
    split_ifs with hb
    · subst hb
      rfl
    · rw [List.cons_append, scan, if_neg hb]

/-- **A written field is read** up to the comma behind it, or to the end. -/
theorem scan_writeField (field t : GoString) :
    ∃ mode, mode ≠ .quoted ∧
      scan .plain [] (lineEnds (writeField field) ++ t) = scan mode (lineEnds field) t := by
  rcases writeField_cases field with ⟨hsame, hplain⟩ | hquoted
  · have hnot : 0x0D ∉ field := fun hmem => (hplain _ hmem).2.1 rfl
    refine ⟨.plain, by decide, ?_⟩
    rw [hsame, lineEnds_of_notMem hnot, scan_plain t hplain, List.nil_append]
  · have hends : lineEnds (writeField field) = 0x22 :: (doubled (lineEnds field) ++ [0x22]) := by
      rw [hquoted, lineEnds_cons (by decide), lineEnds_append (by decide), lineEnds_doubled]
      rfl
    refine ⟨.closing, by decide, ?_⟩
    rw [hends, List.cons_append, List.append_assoc]
    change scan .quoted [] (doubled (lineEnds field) ++ 0x22 :: t) = _
    rw [scan_doubled, List.nil_append]

theorem scan_nil {mode : Mode} (h : mode ≠ .quoted) (field : GoString) :
    scan mode field [] = some [field] := by
  cases mode with
  | plain => rfl
  | quoted => exact absurd rfl h
  | closing => rfl

theorem scan_comma {mode : Mode} (h : mode ≠ .quoted) (field t : GoString) :
    scan mode field (0x2C :: t) = (scan .plain [] t).map (field :: ·) := by
  cases mode with
  | plain => rfl
  | quoted => exact absurd rfl h
  | closing => rfl

theorem row_cons_cons (field field' : GoString) (record : List GoString) :
    row (field :: field' :: record) = writeField field ++ 0x2C :: row (field' :: record) := by
  rw [row, List.map_cons, List.map_cons, join_cons_cons]
  rfl

theorem row_singleton (field : GoString) : row [field] = writeField field := by
  simp [row]

/-- **The fields of a row are read**, each with its line ends. -/
theorem scan_row (field : GoString) (record : List GoString) :
    scan .plain [] (lineEnds (row (field :: record))) = some ((field :: record).map lineEnds) := by
  induction record generalizing field with
  | nil =>
    obtain ⟨mode, hmode, hscan⟩ := scan_writeField field []
    rw [List.append_nil] at hscan
    rw [row_singleton, hscan, scan_nil hmode]
    rfl
  | cons field' record ih =>
    obtain ⟨mode, hmode, hscan⟩ := scan_writeField field (0x2C :: lineEnds (row (field' :: record)))
    rw [row_cons_cons, lineEnds_append (by decide), lineEnds_cons (by decide), hscan,
      scan_comma hmode, ih]
    rfl

/-! ### The ends of a row -/

/-- No row begins or ends with a part of a line end. -/
theorem edge_writeField (field : GoString) {b : UInt8}
    (hb : b ∈ (writeField field).head? ∨ b ∈ (writeField field).getLast?) :
    b ≠ 0x0A ∧ b ≠ 0x0D := by
  rcases writeField_cases field with ⟨hsame, hplain⟩ | hquoted
  · rw [hsame] at hb
    have hmem : b ∈ field := hb.elim List.mem_of_mem_head? List.mem_of_mem_getLast?
    exact ⟨(hplain b hmem).1, (hplain b hmem).2.1⟩
  · have hlast : (writeField field).getLast? = some 0x22 := by
      rw [hquoted, ← List.cons_append, List.getLast?_append]
      rfl
    rw [hlast, hquoted, List.head?_cons, or_self, Option.mem_some_iff] at hb
    subst hb
    decide

theorem edge_row (record : List GoString) {b : UInt8}
    (hb : b ∈ (row record).head? ∨ b ∈ (row record).getLast?) : b ≠ 0x0A ∧ b ≠ 0x0D := by
  induction record with
  | nil => exact hb.elim (fun h => nomatch h) (fun h => nomatch h)
  | cons field record ih =>
    cases record with
    | nil => exact edge_writeField field (row_singleton field ▸ hb)
    | cons field' record =>
      rw [row_cons_cons] at hb
      rcases hb with hb | hb
      · rw [List.head?_append, Option.mem_def, Option.or_eq_some_iff] at hb
        rcases hb with hb | ⟨-, hb⟩
        · exact edge_writeField field (.inl hb)
        · obtain rfl := Option.some.inj hb
          decide
      · rw [List.getLast?_append, Option.mem_def, Option.or_eq_some_iff] at hb
        rcases hb with hb | ⟨-, hb⟩
        · rw [List.getLast?_cons, Option.some.injEq] at hb
          cases hlast : (row (field' :: record)).getLast? with
          | none =>
            rw [hlast, Option.getD_none] at hb
            subst hb
            decide
          | some c =>
            rw [hlast, Option.getD_some] at hb
            exact ih (.inr (hb ▸ hlast))
        · exact edge_writeField field (.inr hb)

theorem row_eq_nil_iff (field : GoString) (record : List GoString) :
    row (field :: record) = [] ↔ field = [] ∧ record = [] := by
  cases record with
  | nil =>
    rw [row_singleton]
    refine ⟨fun h => ⟨?_, rfl⟩, fun h => by rw [h.1]; rfl⟩
    rcases writeField_cases field with ⟨hsame, -⟩ | hquoted
    · rw [← hsame, h]
    · rw [hquoted] at h
      exact nomatch h
  | cons field' record =>
    rw [row_cons_cons]
    simp

theorem dropWhile_of_head {α : Type} {p : α → Bool} {l : List α}
    (h : ∀ a ∈ l.head?, p a = false) : l.dropWhile p = l := by
  cases l with
  | nil => rfl
  | cons a l => rw [List.dropWhile_cons, h a rfl, if_neg Bool.false_ne_true]

/-- Without the end of its line, what is written is the row. -/
theorem trimRight_write (record : List GoString) :
    trimRight (write record) (str "\n") = row record := by
  have hend : ((row record).reverse).dropWhile ((str "\n").contains ·) = (row record).reverse := by
    refine dropWhile_of_head fun b hb => ?_
    rw [List.head?_reverse] at hb
    have hne := (edge_row record (.inr hb)).1
    simpa [show str "\n" = [0x0A] from rfl] using hne
  have hdrop : (0x0A :: (row record).reverse).dropWhile ((str "\n").contains ·) =
      (row record).reverse := by
    rw [List.dropWhile_cons, if_pos (by decide), hend]
  rw [trimRight, write, List.reverse_append, List.reverse_singleton, List.singleton_append, hdrop,
    List.reverse_reverse]

/-- **What is written for a record is read back**, each field with its line ends, unless the row is
empty. -/
theorem read_row {record : List GoString} (hrow : row record ≠ []) :
    read (row record) = some (record.map lineEnds) := by
  obtain _ | ⟨field, record⟩ := record
  · exact absurd rfl hrow
  have hnot : ¬(row (field :: record)).getLast? = some 0x0D := fun hlast =>
    (edge_row _ (.inr hlast)).2 rfl
  have hcr : withoutCR (row (field :: record)) = row (field :: record) := if_neg hnot
  obtain ⟨b, t, hcons⟩ := List.exists_cons_of_ne_nil hrow
  have hb := edge_row (field :: record) (b := b) (.inl (by rw [hcons]; rfl))
  have hscan := scan_row field record
  rw [read, hcr]
  rw [hcons, lineEnds_cons hb.2] at hscan ⊢
  rw [List.dropWhile_cons, if_neg (by simpa using hb.1)]
  exact hscan

end Csv

end Go

end Xsiam
