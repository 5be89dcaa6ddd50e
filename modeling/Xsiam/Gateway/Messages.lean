import Xsiam.Gateway.Bound
import Xsiam.Gateway.Buffer
import Xsiam.Lib.Framing

/-!
# The messages of a stream

The bytes that a connection reads, as messages: frames of the WZCP protocol and lines of text
(`Xsiam.Gateway.look`). What the bytes behind a message are has no say in it, and neither have
the reads in which it comes; so this is a way to find messages (`Xsiam.Gateway.finder`), for
connections whose buffers hold so many bytes. It is what the code sets out to find, read after
read, and does find where the cuts between reads do no harm.
-/

namespace Xsiam

namespace Gateway

open Framing

/-! ### Definitions -/

/-- The text before the first newline. -/
def firstLine : List UInt8 → Option (List UInt8)
  | [] => none
  | b :: bs => if b = 0x0A then some [] else (firstLine bs).map (b :: ·)

/-- A control character comes before any newline. -/
def controlFirst : List UInt8 → Bool
  | [] => false
  | c :: cs => if c = 0x0A then false else if isControl c then true else controlFirst cs

/-- A frame at the start of some bytes that look like one. A frame that cannot be handled ends
its connection. -/
def lookFrame (w : List UInt8) : Found Input :=
  if w.length < 4 + beAt w 0 4 then .more
  else
    match frameAt w with
    | none => .stop none
    | some f =>
      if (Input.frame f).survives {} then .message (.frame f) (4 + beAt w 0 4)
      else .stop (some (.frame f))

/-- A line at the start of some text. -/
def lookLine (w : List UInt8) : Found Input :=
  match firstLine w with
  | none => .more
  | some line => .message (.syslog (line ++ [0x0A])) (line.length + 1)

/-- The message at the start of some bytes. -/
def look (w : List UInt8) : Found Input :=
  if looksLikeWzcp w then lookFrame w
  else if looksLikeSyslog w then lookLine w
  else if 4 + wzcpHeaderSize ≤ w.length ∧ controlFirst (w.take 128) then .stop none
  else .more

/-! ### Bytes with more behind them -/

variable {w : List UInt8}

theorem beAt_append {off k : ℕ} (h : off + k ≤ w.length) (v : List UInt8) :
    beAt (w ++ v) off k = beAt w off k := by
  rw [beAt, List.drop_append_of_le_length (by omega), List.take_append_of_le_length, beAt]
  rw [List.length_drop]
  omega

theorem getD_append {i : ℕ} (h : i < w.length) (v : List UInt8) : (w ++ v).getD i 0 = w.getD i 0 := by
  rw [List.getD_append _ _ _ _ h]

theorem take_append_exists (w v : List UInt8) (k : ℕ) :
    ∃ v', (w ++ v).take k = w.take k ++ v' ∧ (k ≤ w.length → v' = []) := by
  refine ⟨v.take (k - w.length), List.take_append, fun h => ?_⟩
  rw [Nat.sub_eq_zero_of_le h, List.take_zero]

theorem unpackHeader_append (h : wzcpHeaderSize ≤ w.length) (v : List UInt8) :
    unpackHeader (w ++ v) = unpackHeader w := by
  rw [wzcpHeaderSize] at h
  unfold unpackHeader
  rw [beAt_append (by omega), beAt_append (by omega), beAt_append (by omega), beAt_append (by omega),
    getD_append (by omega), getD_append (by omega), getD_append (by omega)]

theorem frameAt_append (h : 4 + beAt w 0 4 ≤ w.length) (hsize : wzcpHeaderSize ≤ beAt w 0 4)
    (v : List UInt8) : frameAt (w ++ v) = frameAt w := by
  rw [wzcpHeaderSize] at hsize
  have hlen : beAt (w ++ v) 0 4 = beAt w 0 4 := beAt_append (by omega) v
  have hheader : unpackHeader ((w ++ v).drop 4) = unpackHeader (w.drop 4) := by
    rw [List.drop_append_of_le_length (by omega)]
    refine unpackHeader_append ?_ v
    rw [List.length_drop, wzcpHeaderSize]
    omega
  rw [frameAt, hheader, hlen, frameAt]
  cases unpackHeader (w.drop 4) with
  | none => rfl
  | some head =>
    dsimp only
    split_ifs with hbody
    · rfl
    · rw [not_not, wzcpHeaderSize] at hbody
      rw [List.drop_append_of_le_length (by rw [wzcpHeaderSize]; omega),
        List.take_append_of_le_length (by rw [List.length_drop, wzcpHeaderSize]; omega)]

theorem looksLikeWzcp_append (h : 4 + wzcpHeaderSize ≤ w.length) (v : List UInt8) :
    looksLikeWzcp (w ++ v) = looksLikeWzcp w := by
  have hlong : 4 + wzcpHeaderSize ≤ (w ++ v).length := by
    rw [List.length_append]
    omega
  rw [looksLikeWzcp, if_neg (Nat.not_lt.mpr hlong), looksLikeWzcp, if_neg (Nat.not_lt.mpr h)]
  rw [wzcpHeaderSize] at h
  rw [beAt_append (by omega), beAt_append (by omega)]

/-- What looks like a frame has a header. -/
theorem looksLikeWzcp_iff : looksLikeWzcp w = true ↔ 4 + wzcpHeaderSize ≤ w.length ∧
    wzcpHeaderSize ≤ beAt w 0 4 ∧ beAt w 0 4 ≤ wzcpMaxFrame ∧ beAt w 4 4 = wzcpMagic := by
  rw [looksLikeWzcp]
  split_ifs with hlen hsize
  · exact iff_of_false (by simp) fun h => by omega
  · exact iff_of_false (by simp) fun h => by omega
  · rw [decide_eq_true_eq]
    exact ⟨fun h => ⟨by omega, by omega, by omega, h⟩, fun h => h.2.2.2⟩

theorem newlineFirst_append (h : newlineFirst w = true) (v : List UInt8) :
    newlineFirst (w ++ v) = true := by
  induction w with
  | nil => exact absurd h (by simp [newlineFirst])
  | cons c cs ih =>
    rw [newlineFirst] at h
    rw [List.cons_append, newlineFirst]
    split_ifs at h ⊢
    · rfl
    · exact ih h

theorem controlFirst_append (h : controlFirst w = true) (v : List UInt8) :
    controlFirst (w ++ v) = true := by
  induction w with
  | nil => exact absurd h (by simp [controlFirst])
  | cons c cs ih =>
    rw [controlFirst] at h
    rw [List.cons_append, controlFirst]
    split_ifs at h ⊢
    · rfl
    · exact ih h

/-- One of the two comes first. -/
theorem newlineFirst_eq_false (h : controlFirst w = true) : newlineFirst w = false := by
  induction w with
  | nil => rfl
  | cons c cs ih =>
    rw [controlFirst] at h
    rw [newlineFirst]
    split_ifs at h ⊢
    · rfl
    · exact ih h

theorem hasPriority_append (h : 2 < w.length) (v : List UInt8) : hasPriority (w ++ v) = hasPriority w := by
  rw [hasPriority, getD_append (by omega), getD_append (by omega), hasPriority]
  have hlong : 2 < (w ++ v).length := by
    rw [List.length_append]
    omega
  simp only [gt_iff_lt, hlong, h]

theorem hasPriority_iff : hasPriority w = true ↔ w.getD 0 0 = 0x3C ∧ 2 < w.length ∧
    0x30 ≤ w.getD 1 0 ∧ w.getD 1 0 ≤ 0x39 := by
  rw [hasPriority, decide_eq_true_eq]

theorem looksLikeSyslog_append (h : looksLikeSyslog w = true) (v : List UInt8) :
    looksLikeSyslog (w ++ v) = true := by
  rw [looksLikeSyslog] at h
  split_ifs at h with hne hprio
  · rw [looksLikeSyslog, if_neg (by simp [hne]), if_pos]
    rw [hasPriority_append (hasPriority_iff.mp hprio).2.1, hprio]
  · rw [looksLikeSyslog, if_neg (by simp [hne])]
    split_ifs
    · rfl
    · obtain ⟨v', htake, -⟩ := take_append_exists w v 128
      rw [htake]
      exact newlineFirst_append h v'

/-- The first byte of the length of a frame. -/
theorem eq_zero_cons (hlen : 4 ≤ w.length) (hmax : beAt w 0 4 ≤ wzcpMaxFrame) : ∃ rest, w = 0 :: rest := by
  have hfour : ∀ w : List UInt8, 4 ≤ w.length → ∃ a b c d rest, w = a :: b :: c :: d :: rest
    | a :: b :: c :: d :: rest, _ => ⟨a, b, c, d, rest, rfl⟩
  obtain ⟨a, b, c, d, rest, rfl⟩ := hfour w hlen
  have hvalue : beAt (a :: b :: c :: d :: rest) 0 4 =
      ((a.toNat * 256 + b.toNat) * 256 + c.toNat) * 256 + d.toNat := by
    rw [beAt, Codec.beNat]
    simp
  rw [hvalue, wzcpMaxFrame] at hmax
  have hzero : a = 0 := UInt8.toNat_inj.mp (by rw [UInt8.toNat_zero]; omega)
  exact ⟨b :: c :: d :: rest, by rw [hzero]⟩

/-- The length of a frame has a first byte that no text starts with. -/
theorem looksLikeWzcp_eq_false (h : looksLikeSyslog w = true) : looksLikeWzcp w = false := by
  by_contra hwzcp
  obtain ⟨hlen, -, hmax, -⟩ := looksLikeWzcp_iff.mp (Bool.eq_true_of_not_eq_false hwzcp)
  obtain ⟨rest, rfl⟩ := eq_zero_cons (le_trans (Nat.le_add_right 4 wzcpHeaderSize) hlen) hmax
  rw [looksLikeSyslog, if_neg (by simp)] at h
  split_ifs at h with hprio
  · exact absurd (hasPriority_iff.mp hprio).1 (by simp)
  · have htake : (0 :: rest).take 128 = 0 :: rest.take 127 := rfl
    rw [htake, newlineFirst, if_neg (by decide), if_pos (by decide)] at h
    exact absurd h (by simp)

/-! ### Lines -/

theorem firstLine_append {line : List UInt8} (h : firstLine w = some line) (v : List UInt8) :
    firstLine (w ++ v) = some line := by
  induction w generalizing line with
  | nil => exact absurd h (by simp [firstLine])
  | cons b bs ih =>
    rw [firstLine] at h
    rw [List.cons_append, firstLine]
    split_ifs at h ⊢
    · exact h
    · obtain ⟨line', hline', rfl⟩ := Option.map_eq_some_iff.mp h
      rw [ih hline', Option.map_some]

theorem firstLine_of_newline {line : List UInt8} (h : (0x0A : UInt8) ∉ line) (v : List UInt8) :
    firstLine (line ++ 0x0A :: v) = some line := by
  induction line with
  | nil => rfl
  | cons b bs ih =>
    rw [List.mem_cons, not_or] at h
    rw [List.cons_append, firstLine, if_neg (Ne.symm h.1), ih h.2, Option.map_some]

theorem firstLine_eq_none (h : (0x0A : UInt8) ∉ w) : firstLine w = none := by
  induction w with
  | nil => rfl
  | cons b bs ih =>
    rw [List.mem_cons, not_or] at h
    rw [firstLine, if_neg (Ne.symm h.1), ih h.2, Option.map_none]

theorem length_firstLine {line : List UInt8} (h : firstLine w = some line) :
    line.length + 1 ≤ w.length := by
  induction w generalizing line with
  | nil => exact absurd h (by simp [firstLine])
  | cons b bs ih =>
    rw [firstLine] at h
    split_ifs at h
    · obtain rfl := Option.some.inj h
      simp
    · obtain ⟨line', hline', rfl⟩ := Option.map_eq_some_iff.mp h
      have := ih hline'
      simp only [List.length_cons]
      omega

/-! ### What is found, with more behind it -/

theorem lookFrame_append (h : looksLikeWzcp w = true) (hfind : lookFrame w ≠ .more) (v : List UInt8) :
    lookFrame (w ++ v) = lookFrame w := by
  obtain ⟨hlen, hsize, -, -⟩ := looksLikeWzcp_iff.mp h
  have hcomplete : ¬w.length < 4 + beAt w 0 4 := fun hshort => hfind (by rw [lookFrame, if_pos hshort])
  have hvalue : beAt (w ++ v) 0 4 = beAt w 0 4 := beAt_append (by omega) v
  have hlong : ¬(w ++ v).length < 4 + beAt (w ++ v) 0 4 := by
    rw [hvalue, List.length_append]
    omega
  rw [lookFrame, if_neg hlong, lookFrame, if_neg hcomplete, hvalue,
    frameAt_append (Nat.not_lt.mp hcomplete) hsize]

theorem look_message_append {m : Input} {n : ℕ} (v : List UInt8) (h : look w = .message m n) :
    look (w ++ v) = .message m n := by
  rw [look] at h
  split_ifs at h with hwzcp hsyslog
  · have hwzcp' := looksLikeWzcp_append (looksLikeWzcp_iff.mp hwzcp).1 v
    rw [look, if_pos (hwzcp'.trans hwzcp), lookFrame_append hwzcp (by simp [h]), h]
  · have hsyslog' := looksLikeSyslog_append hsyslog v
    rw [look, looksLikeWzcp_eq_false hsyslog', if_neg (by simp), if_pos hsyslog', lookLine]
    rw [lookLine] at h
    cases hline : firstLine w with
    | none =>
      rw [hline] at h
      exact absurd h (by simp)
    | some line =>
      rw [hline] at h
      rw [firstLine_append hline]
      exact h

theorem look_stop_append {m : Option Input} (v : List UInt8) (h : look w = .stop m) :
    look (w ++ v) = .stop m := by
  rw [look] at h
  split_ifs at h with hwzcp hsyslog hcontrol
  · have hwzcp' := looksLikeWzcp_append (looksLikeWzcp_iff.mp hwzcp).1 v
    rw [look, if_pos (hwzcp'.trans hwzcp), lookFrame_append hwzcp (by simp [h]), h]
  · rw [lookLine] at h
    cases hline : firstLine w with
    | none =>
      rw [hline] at h
      exact absurd h (by simp)
    | some line =>
      rw [hline] at h
      exact absurd h (by simp)
  · -- control characters in front stay there
    obtain ⟨hlen, hfirst⟩ := hcontrol
    obtain ⟨v', htake, -⟩ := take_append_exists w v 128
    have hfirst' : controlFirst ((w ++ v).take 128) = true := by
      rw [htake]
      exact controlFirst_append hfirst v'
    have hsyslog' : looksLikeSyslog (w ++ v) = false := by
      rw [wzcpHeaderSize] at hlen
      have hne : w ≠ [] := by
        rintro rfl
        simp at hlen
      rw [looksLikeSyslog, if_neg hne] at hsyslog
      rw [looksLikeSyslog, if_neg (by simp [hne]), hasPriority_append (by omega)]
      split_ifs at hsyslog ⊢ with hprio
      · exact absurd rfl hsyslog
      · exact newlineFirst_eq_false hfirst'
    rw [look, looksLikeWzcp_append hlen, if_neg hwzcp, hsyslog', if_neg (by simp), if_pos, h]
    refine ⟨?_, hfirst'⟩
    rw [List.length_append]
    omega

theorem look_le_length {m : Input} {n : ℕ} (h : look w = .message m n) : n ≤ w.length := by
  rw [look] at h
  split_ifs at h with hwzcp hsyslog
  · rw [lookFrame] at h
    split_ifs at h with hshort
    split at h
    · exact absurd h (by simp)
    · split_ifs at h
      · obtain ⟨-, rfl⟩ := Found.message.inj h
        omega
  · rw [lookLine] at h
    split at h
    · exact absurd h (by simp)
    · next line hline =>
      obtain ⟨-, rfl⟩ := Found.message.inj h
      exact length_firstLine hline

/-- The messages that a connection finds whose buffer holds so many bytes. Where they are all there
and are no message yet, the next read ends the connection. -/
def finder (max : ℕ) : Finder UInt8 Input where
  find w :=
    match look (w.take max) with
    | .more => if max < w.length then .stop none else .more
    | found => found
  le_length := by
    intro w m n h
    split at h
    · split_ifs at h
    · have hle := look_le_length h
      rw [List.length_take] at hle
      omega
  message_append := by
    intro w m n v h
    obtain ⟨v', htake, -⟩ := take_append_exists w v max
    cases hlook : look (w.take max) with
    | more =>
      rw [hlook] at h
      dsimp only at h
      split_ifs at h
    | message m' n' =>
      rw [hlook] at h
      rw [htake, look_message_append v' hlook]
      exact h
    | stop m' =>
      rw [hlook] at h
      exact absurd h (by simp)
  stop_append := by
    intro w m v h
    obtain ⟨v', htake, hfull⟩ := take_append_exists w v max
    cases hlook : look (w.take max) with
    | more =>
      rw [hlook] at h
      dsimp only at h
      split_ifs at h with hlen
      -- the buffer was full already
      rw [htake, hfull hlen.le, List.append_nil, hlook]
      dsimp only
      rw [if_pos (by rw [List.length_append]; omega), h]
    | message m' n' =>
      rw [hlook] at h
      exact absurd h (by simp)
    | stop m' =>
      rw [hlook] at h
      rw [htake, look_stop_append v' hlook]
      exact h

/-- What is found in a buffer. -/
theorem find_of_length_le {max : ℕ} (h : w.length ≤ max) : (finder max).find w = look w := by
  show (match look (w.take max) with
    | .more => if max < w.length then Found.stop none else Found.more
    | found => found) = look w
  rw [List.take_of_length_le h]
  split
  · next hlook => rw [if_neg (Nat.not_lt.mpr h), hlook]
  · rfl

/-- A buffer that is full of what is no message yet. -/
theorem find_of_full {max : ℕ} {v : List UInt8} (h : w.length = max) (hlook : look w = .more)
    (hv : v ≠ []) : (finder max).find (w ++ v) = .stop none := by
  show (match look ((w ++ v).take max) with
    | .more => if max < (w ++ v).length then Found.stop none else Found.more
    | found => found) = Found.stop none
  rw [← h, List.take_left, hlook]
  have hpos : 0 < v.length := List.length_pos_iff.mpr hv
  exact if_pos (by rw [List.length_append]; omega)

end Gateway

end Xsiam
