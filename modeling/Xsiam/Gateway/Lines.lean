import Xsiam.Gateway.Messages

/-!
# Lines of a text

`process_syslog_lines` hands on all complete lines of a buffer at once, and leaves the rest of the
text in it. As messages of the stream they are found one by one
(`Xsiam.Gateway.reads_lines`), provided that each of them is recognised as text by itself.
-/

namespace Xsiam

namespace Gateway

open Framing

/-- Some lines, with their newlines. -/
def unlines (lines : List (List UInt8)) : List UInt8 := lines.flatMap (· ++ [0x0A])

/-- A line as a message. -/
def lineInput (line : List UInt8) : Input := .syslog (line ++ [0x0A])

/-! ### Lines and the rest -/

theorem unlines_cons (line : List UInt8) (lines : List (List UInt8)) (tail : List UInt8) :
    unlines (line :: lines) ++ tail = line ++ 0x0A :: (unlines lines ++ tail) := by
  simp [unlines]

/-- A text is some lines and a rest. -/
theorem exists_unlines (text : List UInt8) : ∃ lines tail, text = unlines lines ++ tail ∧
    (∀ line ∈ lines, (0x0A : UInt8) ∉ line) ∧ (0x0A : UInt8) ∉ tail := by
  induction text with
  | nil => exact ⟨[], [], rfl, fun line hline => absurd hline List.not_mem_nil, List.not_mem_nil⟩
  | cons b bs ih =>
    obtain ⟨lines, tail, rfl, hlines, htail⟩ := ih
    by_cases hb : b = 0x0A
    · rw [hb]
      exact ⟨[] :: lines, tail, rfl, List.forall_mem_cons.mpr ⟨List.not_mem_nil, hlines⟩, htail⟩
    · -- a byte in front of the first line, or of the rest
      have hne : (0x0A : UInt8) ≠ b := Ne.symm hb
      cases lines with
      | nil => exact ⟨[], b :: tail, rfl, hlines, List.not_mem_cons_of_ne_of_not_mem hne htail⟩
      | cons line lines =>
        obtain ⟨hline, hlines⟩ := List.forall_mem_cons.mp hlines
        refine ⟨(b :: line) :: lines, tail, rfl, List.forall_mem_cons.mpr ⟨?_, hlines⟩, htail⟩
        exact List.not_mem_cons_of_ne_of_not_mem hne hline

section Text

variable {lines : List (List UInt8)} {tail : List UInt8}

theorem completeLines_eq_nil (htail : (0x0A : UInt8) ∉ tail) (line : List UInt8) :
    completeLines line tail = [] := by
  induction tail generalizing line with
  | nil => rfl
  | cons b bs ih =>
    rw [List.mem_cons, not_or] at htail
    rw [completeLines, if_neg (Ne.symm htail.1), ih htail.2]

theorem completeLines_of_newline {part : List UInt8} (h : (0x0A : UInt8) ∉ part)
    (line text : List UInt8) :
    completeLines line (part ++ 0x0A :: text) = (line ++ part) :: completeLines [] text := by
  induction part generalizing line with
  | nil => rw [List.nil_append, completeLines, if_pos rfl, List.append_nil]
  | cons b bs ih =>
    rw [List.mem_cons, not_or] at h
    rw [List.cons_append, completeLines, if_neg (Ne.symm h.1), ih h.2, List.append_assoc,
      List.singleton_append]

theorem completeLines_unlines (hlines : ∀ line ∈ lines, (0x0A : UInt8) ∉ line)
    (htail : (0x0A : UInt8) ∉ tail) : completeLines [] (unlines lines ++ tail) = lines := by
  induction lines with
  | nil => exact completeLines_eq_nil htail []
  | cons line lines ih =>
    obtain ⟨hline, hlines⟩ := List.forall_mem_cons.mp hlines
    rw [unlines_cons, completeLines_of_newline hline, ih hlines, List.nil_append]

/-- What is consumed are the lines. -/
theorem consumedLines_unlines (htail : (0x0A : UInt8) ∉ tail) :
    consumedLines (unlines lines ++ tail) = (unlines lines).length := by
  have hkept : ∀ b ∈ tail.reverse, decide (b ≠ (0x0A : UInt8)) = true := by
    intro b hb
    refine decide_eq_true fun heq => htail ?_
    rw [← heq]
    exact List.mem_reverse.mp hb
  have hstop : (unlines lines).reverse.takeWhile (· ≠ 0x0A) = [] := by
    rcases List.eq_nil_or_concat lines with rfl | ⟨lines, line, rfl⟩
    · rfl
    · simp [unlines]
  rw [consumedLines, List.reverse_append, List.takeWhile_append_of_pos hkept, hstop, List.append_nil,
    List.length_reverse, List.length_append]
  omega

theorem drop_consumedLines (htail : (0x0A : UInt8) ∉ tail) :
    (unlines lines ++ tail).drop (consumedLines (unlines lines ++ tail)) = tail := by
  rw [consumedLines_unlines htail, List.drop_left]

/-- The lines of a text, one by one. -/
theorem syslogLines_unlines (hlines : ∀ line ∈ lines, (0x0A : UInt8) ∉ line)
    (htail : (0x0A : UInt8) ∉ tail) :
    syslogLines (unlines lines ++ tail) = lines.flatMap fun line => syslogLines (line ++ [0x0A]) := by
  have hone : ∀ line ∈ lines, syslogLines (line ++ [0x0A]) =
      (([line].map trimCR).filter (· ≠ [])).map castLine := by
    intro line hline
    rw [syslogLines, completeLines_of_newline (hlines line hline), List.nil_append]
    rfl
  rw [List.flatMap_congr hone, syslogLines, completeLines_unlines hlines htail]
  clear hone hlines
  induction lines with
  | nil => rfl
  | cons line lines ih =>
    rw [List.flatMap_cons, ← ih, ← List.map_append, ← List.filter_append, ← List.map_append]
    rfl

end Text

/-! ### What is found of a text -/

theorem looksLikeWzcp_eq_false_of_part {w v : List UInt8} (h : looksLikeSyslog (w ++ v) = true) :
    looksLikeWzcp w = false := by
  by_contra hwzcp
  have hwzcp : looksLikeWzcp w = true := Bool.eq_true_of_not_eq_false hwzcp
  have hlong := looksLikeWzcp_append (looksLikeWzcp_iff.mp hwzcp).1 v
  exact absurd ((looksLikeWzcp_eq_false h).symm.trans (hlong.trans hwzcp)) (by simp)

theorem look_line {line : List UInt8} (hline : (0x0A : UInt8) ∉ line)
    (htext : looksLikeSyslog (line ++ [0x0A]) = true) (v : List UInt8) :
    look (line ++ 0x0A :: v) = .message (lineInput line) (line.length + 1) := by
  have hmore : looksLikeSyslog (line ++ 0x0A :: v) = true := by
    have happend := looksLikeSyslog_append htext v
    rwa [List.append_assoc, List.singleton_append] at happend
  rw [look, looksLikeWzcp_eq_false hmore, if_neg (by simp), if_pos hmore, lookLine,
    firstLine_of_newline hline]
  rfl

/-- A rest of which nothing can be told, or that is a line that goes on. -/
theorem look_rest {tail : List UInt8} (hwzcp : looksLikeWzcp tail = false)
    (htail : (0x0A : UInt8) ∉ tail)
    (hquiet : tail.length < 4 + wzcpHeaderSize ∨ looksLikeSyslog tail = true) : look tail = .more := by
  rw [look, hwzcp, if_neg (by simp)]
  split_ifs with hsyslog hcontrol
  · rw [lookLine, firstLine_eq_none htail]
  · rcases hquiet with hshort | htext
    · omega
    · exact absurd htext hsyslog
  · rfl

/-- **The lines of a text are its messages.** -/
theorem reads_lines {max : ℕ} {lines : List (List UInt8)} {tail : List UInt8}
    (hlines : ∀ line ∈ lines, (0x0A : UInt8) ∉ line ∧ looksLikeSyslog (line ++ [0x0A]) = true ∧
      line.length + 1 ≤ max)
    (htail : Reads (finder max) tail [] (some tail)) :
    Reads (finder max) (unlines lines ++ tail) (lines.map lineInput) (some tail) := by
  induction lines with
  | nil => exact htail
  | cons line lines ih =>
    obtain ⟨⟨hline, htext, hlen⟩, hlines⟩ := List.forall_mem_cons.mp hlines
    have hfind : (finder max).find (line ++ [0x0A]) = .message (lineInput line) (line.length + 1) := by
      rw [find_of_length_le (by simpa using hlen)]
      exact look_line hline htext []
    have hfind' := (finder max).message_append (unlines lines ++ tail) hfind
    rw [List.append_assoc, List.singleton_append] at hfind'
    rw [unlines_cons, List.map_cons]
    refine .message hfind' ?_
    have hdrop : (line ++ 0x0A :: (unlines lines ++ tail)).drop (line.length + 1) =
        unlines lines ++ tail := by
      rw [← List.singleton_append, ← List.append_assoc]
      exact List.drop_left' (by simp)
    rw [hdrop]
    exact ih hlines

end Gateway

end Xsiam
