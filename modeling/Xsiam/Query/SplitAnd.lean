import Xsiam.Lib.Separator
import Xsiam.Etl.Match

/-!
# Splitting an expression on AND

Three functions of the source split an expression on `" AND "`: `splitAND` for filter
expressions of ETL rules (`Xsiam.Etl.splitAND`), `splitAnd` for queries
(`internal/domain/query/service.go`) and `ngxSplitAnd` for their translation
(`internal/datalake/ngx_translator.go`). They look for the separator in the lower-cased
expression and cut the original one at the offsets they find. Lower-casing can make a
letter longer or shorter, and then the offsets are off: text gets lost, or the slice is
out of range.

The three return the same (`Xsiam.Query.splitAnd_eq_splitAND`), and they split without a
loss exactly when every offset at which the lower-cased expression is cut is one at
which the expression has the separator in some letter case
(`Xsiam.Query.split_lossless_iff`). That no *further* separator is left in a part follows
by counting: lower-casing moves the separators, but makes and destroys none
(`Xsiam.Query.count_toLower`).
-/

namespace Xsiam

namespace Query

open Go Etl Separator

/-! ### The two other splitters -/

/-- The loop of `splitAnd`, which cuts both strings down. `none` is a slice out of
range. -/
def splitAndLoop (expr lower : GoString) : Option (List GoString) :=
  match _ : index andSep lower with
  | none => some [expr]
  | some idx =>
    if idx + 5 ≤ expr.length then
      (splitAndLoop (expr.drop (idx + 5)) (lower.drop (idx + 5))).map (expr.take idx :: ·)
    else none
termination_by lower.length
decreasing_by exact length_drop_of_index_andSep ‹_›

theorem splitAndLoop_of_none {expr lower : GoString} (h : index andSep lower = none) :
    splitAndLoop expr lower = some [expr] := by
  rw [splitAndLoop]
  split
  · rfl
  · next i hi => exact absurd (hi.symm.trans h) (by simp)

theorem splitAndLoop_of_some {expr lower : GoString} {idx : ℕ}
    (h : index andSep lower = some idx) :
    splitAndLoop expr lower =
      if idx + 5 ≤ expr.length then
        (splitAndLoop (expr.drop (idx + 5)) (lower.drop (idx + 5))).map (expr.take idx :: ·)
      else none := by
  rw [splitAndLoop]
  split
  · next hi => exact absurd (hi.symm.trans h) (by simp)
  · next i hi =>
    obtain rfl := Option.some.inj (hi.symm.trans h)
    rfl

/-- `splitAnd` -/
def splitAnd (expr : GoString) : Option (List GoString) := splitAndLoop expr (toLower expr)

/-- `ngxSplitAnd` -/
def ngxSplitAnd (expr : GoString) : Option (List GoString) := splitAndLoop expr (toLower expr)

/-- Past the end of the expression the loop of `splitAND` always panics. -/
theorem splitANDLoop_of_gt {expr : GoString} (lower : GoString) {start : ℕ}
    (h : expr.length < start) : splitANDLoop expr lower start = none := by
  rw [splitANDLoop]
  split
  · rw [if_neg (by omega)]
  · rw [if_neg (by omega)]

/-- Moving an offset and cutting the strings down is the same. -/
theorem splitANDLoop_eq (expr lower : GoString) (n : ℕ) :
    ∀ start, start ≤ expr.length → lower.length - start ≤ n →
      splitANDLoop expr lower start = splitAndLoop (expr.drop start) (lower.drop start) := by
  induction n with
  | zero =>
    intro start hstart hn
    rw [splitANDLoop, splitAndLoop]
    rcases hidx : index andSep (lower.drop start) with _ | idx
    · simp [hstart]
    · have hfit := (index_eq_some hidx).1
      rw [andSep_length, List.length_drop] at hfit
      omega
  | succ n ih =>
    intro start hstart hn
    rw [splitANDLoop, splitAndLoop]
    rcases hidx : index andSep (lower.drop start) with _ | idx
    · simp [hstart]
    · have hfit := (index_eq_some hidx).1
      rw [andSep_length, List.length_drop] at hfit
      have htake : start + idx - start = idx := by omega
      have hnext : start + (idx + 5) = start + idx + 5 := by omega
      simp only [List.length_drop, List.drop_drop, List.drop_take, htake, hnext]
      by_cases hin : start + idx + 5 ≤ expr.length
      · rw [if_pos (by omega), if_pos (by omega), ih (start + idx + 5) hin (by omega)]
      · rw [if_neg (show ¬idx + 5 ≤ expr.length - start by omega),
          splitANDLoop_of_gt lower (by omega), Option.map_none, ite_self]

/-- **The three splitters return the same**, panics included. -/
theorem splitAnd_eq_splitAND (expr : GoString) :
    splitAnd expr = splitAND expr ∧ ngxSplitAnd expr = splitAND expr := by
  have h : splitAND expr = splitAndLoop expr (toLower expr) :=
    splitANDLoop_eq expr (toLower expr) _ 0 (Nat.zero_le _) le_rfl
  exact ⟨h.symm, h.symm⟩

/-! ### Lower-casing and the separator -/

theorem andSep_ne_nil : andSep ≠ [] := by decide

theorem andSep_eq : andSep = [0x20, 0x61, 0x6E, 0x64, 0x20] := by decide

theorem not_farByte_andSep : ∀ x ∈ andSep, ¬FarByte x := by
  rw [andSep_eq]
  simp [FarByte]

/-- A word without bytes that lower-casing could make out of others is in front of the
lower-cased string exactly when it is in front of the string lower-cased byte by byte,
and what is behind it is lower-cased on its own. -/
theorem prefix_toLower {w : GoString} (hw : ∀ x ∈ w, ¬FarByte x) :
    ∀ s : GoString, (w <+: toLower s ↔ w <+: s.map lowerByte) ∧
      (w <+: s.map lowerByte → (toLower s).drop w.length = toLower (s.drop w.length)) := by
  induction w with
  | nil => intro s; simp
  | cons c w ih =>
    have hc : ¬FarByte c := hw c List.mem_cons_self
    have htail := ih fun x hx => hw x (List.mem_cons_of_mem c hx)
    intro s
    rcases s with _ | ⟨b, bs⟩
    · simp
    by_cases hb : b.toNat < 0x80
    · obtain ⟨hiff, hdrop⟩ := htail bs
      rw [toLower_cons_ascii hb, List.map_cons, List.cons_prefix_cons, List.cons_prefix_cons, hiff]
      exact ⟨Iff.rfl, fun h => by simpa using hdrop h.2⟩
    · -- neither string starts with an ASCII byte of the word
      have hlow : ¬(c :: w <+: (b :: bs).map lowerByte) := by
        rw [List.map_cons, List.cons_prefix_cons, lowerByte, if_neg (by omega)]
        rintro ⟨rfl, -⟩
        exact hc (Or.inl (not_lt.mp hb))
      have hhigh : ¬(c :: w <+: toLower (b :: bs)) := by
        obtain ⟨u, v, rest, -, -, hv, hfar, heq⟩ := toLower_cons_wide (not_lt.mp hb) bs
        obtain ⟨y, v, rfl⟩ := List.exists_cons_of_ne_nil hv
        rw [heq, List.cons_append, List.cons_prefix_cons]
        rintro ⟨rfl, -⟩
        exact hc (hfar c List.mem_cons_self)
      exact ⟨iff_of_false hhigh hlow, fun h => absurd h hlow⟩

/-- Bytes other than a space take no part in a separator that starts among them. -/
theorem count_append_of_ne {v : GoString} (hv : ∀ x ∈ v, x ≠ 0x20) (t : GoString) :
    count andSep (v ++ t) = count andSep t := by
  induction v with
  | nil => rfl
  | cons x v ih =>
    have hnot : ¬(andSep <+: x :: (v ++ t)) := by
      rw [andSep_eq, List.cons_prefix_cons]
      exact fun h => hv x List.mem_cons_self h.1.symm
    rw [List.cons_append, count_of_notPrefix hnot]
    exact ih fun y hy => hv y (List.mem_cons_of_mem x hy)

theorem ne_space_of_farByte {x : UInt8} (h : FarByte x) : x ≠ 0x20 := by
  rintro rfl
  exact absurd h (by unfold FarByte; decide)

/-- **Lower-casing keeps the number of separators.** -/
theorem count_toLower (n : ℕ) : ∀ s : GoString, s.length ≤ n →
    count andSep (toLower s) = count andSep (s.map lowerByte) := by
  induction n with
  | zero =>
    intro s hs
    obtain rfl : s = [] := List.length_eq_zero_iff.mp (by omega)
    rfl
  | succ n ih =>
    intro s hs
    rcases s with _ | ⟨b, bs⟩
    · rfl
    by_cases hb : b.toNat < 0x80
    · obtain ⟨hiff, hdrop⟩ := prefix_toLower not_farByte_andSep (b :: bs)
      by_cases hpre : andSep <+: (b :: bs).map lowerByte
      · rw [count_of_isPrefix andSep_ne_nil (hiff.mpr hpre), count_of_isPrefix andSep_ne_nil hpre,
          hdrop hpre, ← List.map_drop, ih _ (by rw [List.length_drop, andSep_length]; omega)]
      · have hpre' : ¬(andSep <+: toLower (b :: bs)) := fun h => hpre (hiff.mp h)
        rw [toLower_cons_ascii hb] at hpre' ⊢
        rw [List.map_cons] at hpre ⊢
        rw [count_of_notPrefix hpre, count_of_notPrefix hpre']
        exact ih bs (by simpa using hs)
    · -- the bytes of one wide rune, and what they are lower-cased to
      obtain ⟨u, v, rest, heq, hu, -, hfar, hlow⟩ := toLower_cons_wide (not_lt.mp hb) bs
      have hwide : ∀ x ∈ (b :: u).map lowerByte, x ≠ 0x20 := by
        intro x hx
        obtain ⟨y, hy, rfl⟩ := List.mem_map.mp hx
        have hge : 0x80 ≤ y.toNat := by
          rcases List.mem_cons.mp hy with rfl | hy
          · exact not_lt.mp hb
          · exact hu y hy
        rw [lowerByte, if_neg (by omega)]
        exact ne_space_of_farByte (Or.inl hge)
      have hshort : rest.length ≤ n := by
        have := congrArg List.length heq
        simp only [List.length_cons, List.length_append] at this hs
        omega
      rw [hlow, heq, List.map_append, count_append_of_ne fun x hx => ne_space_of_farByte (hfar x hx),
        count_append_of_ne hwide]
      exact ih rest hshort

/-! ### Splitting without a loss -/

/-- The expression has the separator at an offset, in some letter case. -/
def SeparatorAt (expr : GoString) (o : ℕ) : Prop := andSep <+: (expr.drop o).map lowerByte

instance (expr : GoString) (o : ℕ) : Decidable (SeparatorAt expr o) :=
  inferInstanceAs (Decidable (_ <+: _))

/-- A splitter returns, and without a loss: its parts give the expression back with a
separator in some letter case between any two of them, and no part has a separator in
it. -/
def Lossless (expr : GoString) (result : Option (List GoString)) : Prop :=
  ∃ parts, result = some parts ∧ Glued (fun w => w.map lowerByte = andSep) parts expr ∧
    ∀ part ∈ parts, ¬andSep <:+: part.map lowerByte

/-- Every offset at which the lower-cased expression is cut is one at which the expression
has the separator. -/
def Aligned (expr : GoString) : Prop :=
  ∀ o ∈ cuts andSep (toLower expr), SeparatorAt expr o

instance (expr : GoString) : Decidable (Aligned expr) :=
  inferInstanceAs (Decidable (∀ o ∈ _, _))

/-- Cuts of what is left behind the first one. -/
theorem cuts_of_index {lower : GoString} {idx : ℕ} (h : index andSep lower = some idx) :
    cuts andSep lower =
      idx :: (cuts andSep (lower.drop (idx + 5))).map (idx + 5 + ·) := by
  obtain ⟨-, hpre, hmin⟩ := index_eq_some h
  rw [cuts, cutsFrom_of_first andSep_ne_nil hpre hmin, cutsFrom_shift, andSep_length]
  simp [cuts]

theorem cuts_of_index_none {lower : GoString} (h : index andSep lower = none) :
    cuts andSep lower = [] :=
  cutsFrom_eq_nil (index_eq_none h) 0

theorem separatorAt_drop (expr : GoString) (n o : ℕ) :
    SeparatorAt (expr.drop n) o ↔ SeparatorAt expr (n + o) := by
  rw [SeparatorAt, SeparatorAt, List.drop_drop]

theorem SeparatorAt.le_length {expr : GoString} {o : ℕ} (h : SeparatorAt expr o) :
    o + 5 ≤ expr.length := by
  have hlen := h.length_le
  rw [andSep_length, List.length_map, List.length_drop] at hlen
  omega

/-- Cut at separators only, the loop gives the expression back, one part more than there
are cuts. -/
theorem splitAndLoop_glued (n : ℕ) : ∀ expr lower : GoString, lower.length ≤ n →
    (∀ o ∈ cuts andSep lower, SeparatorAt expr o) →
      ∃ parts, splitAndLoop expr lower = some parts ∧
        Glued (fun w => w.map lowerByte = andSep) parts expr ∧
        parts.length = count andSep lower + 1 := by
  induction n with
  | zero =>
    intro expr lower hn _
    obtain rfl : lower = [] := List.length_eq_zero_iff.mp (by omega)
    exact ⟨[expr], splitAndLoop_of_none rfl, Glued.one expr, rfl⟩
  | succ n ih =>
    intro expr lower hn halign
    rcases hidx : index andSep lower with _ | idx
    · refine ⟨[expr], splitAndLoop_of_none hidx, Glued.one expr, ?_⟩
      rw [count, cuts_of_index_none hidx]
      rfl
    · rw [cuts_of_index hidx, List.forall_mem_cons] at halign
      obtain ⟨hhead, htail⟩ := halign
      have hin := hhead.le_length
      have hshort := length_drop_of_index_andSep hidx
      obtain ⟨parts, hloop, hglued, hlen⟩ := ih (expr.drop (idx + 5)) (lower.drop (idx + 5))
        (by omega) fun o ho => (separatorAt_drop expr _ o).mpr
          (htail _ (List.mem_map_of_mem (f := (idx + 5 + ·)) ho))
      refine ⟨expr.take idx :: parts, ?_, ?_, ?_⟩
      · rw [splitAndLoop_of_some hidx, if_pos hin, hloop]
        rfl
      · -- the part, the five bytes of the separator, and what the rest is glued from
        have hcut : expr = expr.take idx ++ ((expr.drop idx).take 5 ++ expr.drop (idx + 5)) := by
          rw [← List.drop_drop, List.take_append_drop, List.take_append_drop]
        have hsep : ((expr.drop idx).take 5).map lowerByte = andSep := by
          rw [List.map_take, ← andSep_length]
          exact (List.prefix_iff_eq_take.mp hhead).symm
        have hcons := @Glued.cons _ (fun w => w.map lowerByte = andSep) (expr.take idx) _ _ _
          hsep hglued
        rwa [← hcut] at hcons
      · rw [List.length_cons, hlen, count, count, cuts_of_index hidx, List.length_cons,
          List.length_map]

theorem splitAndLoop_ne_nil {expr lower : GoString} {parts : List GoString}
    (h : splitAndLoop expr lower = some parts) : parts ≠ [] := by
  rcases hidx : index andSep lower with _ | idx
  · rw [splitAndLoop_of_none hidx] at h
    obtain rfl := Option.some.inj h
    simp
  · rw [splitAndLoop_of_some hidx] at h
    split_ifs at h
    obtain ⟨ps, -, rfl⟩ := Option.map_eq_some_iff.mp h
    simp

/-- Parts that give the expression back were cut at separators only. -/
theorem aligned_of_glued (n : ℕ) : ∀ expr lower : GoString, lower.length ≤ n →
    ∀ parts, splitAndLoop expr lower = some parts →
      Glued (fun w => w.map lowerByte = andSep) parts expr →
        ∀ o ∈ cuts andSep lower, SeparatorAt expr o := by
  induction n with
  | zero =>
    intro expr lower hn parts _ _
    obtain rfl : lower = [] := List.length_eq_zero_iff.mp (by omega)
    simp [cuts, cutsFrom]
  | succ n ih =>
    intro expr lower hn parts hloop hglued
    rcases hidx : index andSep lower with _ | idx
    · simp [cuts_of_index_none hidx]
    · rw [splitAndLoop_of_some hidx] at hloop
      split_ifs at hloop with hin
      obtain ⟨ps, hps, rfl⟩ := Option.map_eq_some_iff.mp hloop
      have hshort := length_drop_of_index_andSep hidx
      -- what stands between the first part and the rest is the separator, in some case
      obtain ⟨w, s, hw, hrest, hexpr⟩ : ∃ w s, w.map lowerByte = andSep ∧
          Glued (fun w => w.map lowerByte = andSep) ps s ∧ expr = expr.take idx ++ (w ++ s) := by
        generalize hp : expr.take idx = p at hglued
        rcases hglued with _ | ⟨hw, hrest⟩
        · exact absurd rfl (splitAndLoop_ne_nil hps)
        · exact ⟨_, _, hw, hrest, rfl⟩
      have hwlen : w.length = 5 := by
        rw [← andSep_length, ← hw, List.length_map]
      have hdrop : expr.drop idx = w ++ s := by
        have htake : (expr.take idx).length = idx := by
          rw [List.length_take]
          omega
        conv_lhs => rw [hexpr]
        rw [List.drop_left' htake]
      have htail : expr.drop (idx + 5) = s := by
        rw [← List.drop_drop, hdrop, List.drop_left' hwlen]
      rw [cuts_of_index hidx, List.forall_mem_cons]
      constructor
      · rw [SeparatorAt, hdrop, List.map_append, hw]
        exact List.prefix_append _ _
      · intro o ho
        obtain ⟨o', ho', rfl⟩ := List.mem_map.mp ho
        rw [← separatorAt_drop]
        exact ih _ _ (by omega) ps hps (htail ▸ hrest) o' ho'

theorem splitAnd_lossless_iff (expr : GoString) :
    Lossless expr (splitAnd expr) ↔ Aligned expr := by
  constructor
  · rintro ⟨parts, hsplit, hglued, -⟩
    exact aligned_of_glued _ expr _ le_rfl parts hsplit hglued
  · intro halign
    obtain ⟨parts, hsplit, hglued, hlen⟩ := splitAndLoop_glued _ expr _ le_rfl halign
    rw [count_toLower _ expr le_rfl] at hlen
    exact ⟨parts, hsplit, hglued, hglued.not_infix andSep_ne_nil hlen⟩

/-- **When the splitters split without a loss**, and without a panic: exactly when
lower-casing leaves every separator where it was. -/
theorem split_lossless_iff (expr : GoString) :
    (Lossless expr (splitAND expr) ↔ Aligned expr) ∧
      (Lossless expr (splitAnd expr) ↔ Aligned expr) ∧
        (Lossless expr (ngxSplitAnd expr) ↔ Aligned expr) := by
  obtain ⟨h1, h2⟩ := splitAnd_eq_splitAND expr
  have h := splitAnd_lossless_iff expr
  refine ⟨h1 ▸ h, h, ?_⟩
  rw [h2, ← h1]
  exact h

example : Aligned (str "kind=dns AND host!=ȺȺ") := by decide +kernel

theorem toLower_of_ascii {s : GoString} (h : ∀ b ∈ s, b.toNat < 0x80) :
    toLower s = s.map lowerByte := by
  induction s with
  | nil => rfl
  | cons b bs ih =>
    rw [toLower_cons_ascii (h b List.mem_cons_self),
      ih fun x hx => h x (List.mem_cons_of_mem b hx), List.map_cons]

/-- An expression in ASCII is split without a loss. -/
theorem aligned_of_ascii {expr : GoString} (h : ∀ b ∈ expr, b.toNat < 0x80) : Aligned expr := by
  intro o ho
  rw [toLower_of_ascii h] at ho
  rw [SeparatorAt, List.map_drop]
  exact (prefix_of_mem_cutsFrom ho).2

/-- Two letters that are longer in lower case, before a separator, and the splitters
slice out of range. -/
theorem split_out_of_range :
    splitAND (str "ȺȺ and x") = none ∧ splitAnd (str "ȺȺ and x") = none ∧
      ngxSplitAnd (str "ȺȺ and x") = none := by
  have h : splitAND (str "ȺȺ and x") = none := by decide +kernel
  obtain ⟨h1, h2⟩ := splitAnd_eq_splitAND (str "ȺȺ and x")
  exact ⟨h, h1.trans h, h2.trans h⟩

/-! ### The parts, by the cuts -/

/-- Every separator that lower-casing shows has its five bytes in the expression. -/
def CutsInside (expr : GoString) : Prop :=
  ∀ o ∈ cuts andSep (toLower expr), o + 5 ≤ expr.length

instance (expr : GoString) : Decidable (CutsInside expr) :=
  inferInstanceAs (Decidable (∀ o ∈ _, _))

/-- What stands from an offset on, cut at offsets where five bytes are left out. -/
def piecesFrom (expr : GoString) : ℕ → List ℕ → List GoString
  | start, [] => [expr.drop start]
  | start, o :: os => (expr.take o).drop start :: piecesFrom expr (o + 5) os

/-- An expression, cut where its lower-cased form has the separator. -/
def pieces (expr : GoString) : List GoString := piecesFrom expr 0 (cuts andSep (toLower expr))

theorem piecesFrom_drop (expr : GoString) (n : ℕ) (os : List ℕ) : ∀ start,
    piecesFrom expr (n + start) (os.map (n + ·)) = piecesFrom (expr.drop n) start os := by
  induction os with
  | nil =>
    intro start
    simp [piecesFrom, List.drop_drop]
  | cons o os ih =>
    intro start
    rw [List.map_cons, piecesFrom, piecesFrom, Nat.add_assoc, ih (o + 5), List.drop_take,
      List.drop_take, List.drop_drop]
    congr 2
    omega

/-- The loop of the splitters, by the cuts. -/
theorem splitAndLoop_eq (n : ℕ) : ∀ expr lower : GoString, lower.length ≤ n →
    splitAndLoop expr lower =
      if ∀ o ∈ cuts andSep lower, o + 5 ≤ expr.length then
        some (piecesFrom expr 0 (cuts andSep lower))
      else none := by
  induction n with
  | zero =>
    intro expr lower hn
    obtain rfl : lower = [] := List.length_eq_zero_iff.mp (by omega)
    rw [splitAndLoop_of_none rfl]
    simp [cuts, cutsFrom, piecesFrom]
  | succ n ih =>
    intro expr lower hn
    rcases hidx : index andSep lower with _ | idx
    · rw [splitAndLoop_of_none hidx, cuts_of_index_none hidx]
      simp [piecesFrom]
    · have hshort := length_drop_of_index_andSep hidx
      rw [splitAndLoop_of_some hidx, cuts_of_index hidx, ih _ _ (by omega)]
      by_cases hin : idx + 5 ≤ expr.length
      · -- the cuts behind the first one, seen from the start and from behind it
        have hrest : (∀ o ∈ cuts andSep (lower.drop (idx + 5)), o + 5 ≤ (expr.drop (idx + 5)).length) ↔
            ∀ o ∈ idx :: (cuts andSep (lower.drop (idx + 5))).map (idx + 5 + ·),
              o + 5 ≤ expr.length := by
          rw [List.forall_mem_cons, List.forall_mem_map, List.length_drop]
          refine ⟨fun h => ⟨hin, fun o ho => ?_⟩, fun h o ho => ?_⟩
          · have := h o ho
            omega
          · have := h.2 o ho
            omega
        rw [if_pos hin, if_congr hrest rfl rfl]
        split_ifs with hall
        · rw [Option.map_some, piecesFrom, List.drop_zero]
          congr 2
          exact (piecesFrom_drop expr (idx + 5) _ 0).symm
        · rfl
      · rw [if_neg hin, if_neg fun hall => hin (hall idx List.mem_cons_self)]

/-- **What `splitAnd` returns**, and when it panics. -/
theorem splitAnd_eq (expr : GoString) :
    splitAnd expr = if CutsInside expr then some (pieces expr) else none :=
  splitAndLoop_eq _ expr (toLower expr) le_rfl

end Query

end Xsiam
