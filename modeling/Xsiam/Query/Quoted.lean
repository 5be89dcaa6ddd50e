import Xsiam.Etl.Printed

/-!
# Conditions with quoted values

A list of equations, the values in quotes and `AND` between them, is a filter expression of a rule
and, behind a dataset clause, a filter stage of a query. Both parsers take the text apart before
they look at the quotes: the lines, the comments and the bars of a query first, then the
connectives, then the operators.

Whatever the cuts are, a parser can only return the list if it cuts where the conditions are joined
(`Xsiam.Query.joints_of_reads`). The argument counts: every `=` of the text is in a field, in a
value, or the operator of a condition, so a parser that returns every condition loses none of them,
and its cuts are where the text without `=` is. Cut at the joints, the text falls into its conditions
again (`Xsiam.Query.pieces_of_joints`), and each is read by itself. So it is known exactly which
lists come back from both parsers (`Xsiam.Query.verbatim_iff`).
-/

namespace Xsiam

namespace Query

open Go Etl Separator

/-! ### Printing -/

/-- An equation, its value in quotes. -/
def printQuoted (q : UInt8) (kv : GoString × GoString) : GoString :=
  printCondition kv.1 .equal (q :: (kv.2 ++ [q]))

/-- A list of them, with `AND` between any two. -/
def printFilter (q : UInt8) (kvs : List (GoString × GoString)) : GoString :=
  join (kvs.map (printQuoted q)) (str " AND ")

/-- What stands behind the first `=` of a printed list. -/
def behind (q : UInt8) (v : GoString) : List (GoString × GoString) → GoString
  | [] => q :: (v ++ [q])
  | kv :: kvs => q :: (v ++ q :: (str " AND " ++ (kv.1 ++ 0x3D :: behind q kv.2 kvs)))

theorem printFilter_cons (q : UInt8) (kv : GoString × GoString) (kvs : List (GoString × GoString)) :
    printFilter q (kv :: kvs) = kv.1 ++ 0x3D :: behind q kv.2 kvs := by
  induction kvs generalizing kv with
  | nil => simp [printFilter, printQuoted, printCondition, join, behind, FilterOp.text_equal]
  | cons kv' kvs ih =>
    have hjoin : printFilter q (kv :: kv' :: kvs) =
        printQuoted q kv ++ (str " AND " ++ printFilter q (kv' :: kvs)) := by
      simp [printFilter, join]
    rw [hjoin, ih]
    simp [printQuoted, printCondition, behind, FilterOp.text_equal]

/-! ### Reading -/

/-- What is read of an equation: what stands before and behind its first `=`. -/
def ReadsEquation (p : GoString) (kv : GoString × GoString) : Prop :=
  ∃ idx, index (str "=") (trimSpace p) = some idx ∧ kv.1 = trimSpace ((trimSpace p).take idx) ∧
    kv.2 = trim (trimSpace ((trimSpace p).drop (idx + 1))) (str "\"'")

/-- A text is trimmed on either side of its first `=`. -/
theorem trimSpace_equation (a b : GoString) :
    trimSpace (a ++ 0x3D :: b) = dropWords spaces 0 a ++ 0x3D :: trimEnd b := by
  have hfront := dropWords_append (spaces_visible (b := 0x3D) (by decide)) b a 0 (Nat.zero_le _)
  change trimEnd (dropWords spaces 0 (a ++ 0x3D :: b)) = _
  rw [hfront, trimEnd_append (b := 0x3D) (by decide)]

theorem ReadsEquation.eq {a b : GoString} {kv : GoString × GoString}
    (h : ReadsEquation (a ++ 0x3D :: b) kv) (ha : 0x3D ∉ a) :
    kv.1 = trimSpace a ∧ kv.2 = trim (trimSpace (trimEnd b)) (str "\"'") := by
  obtain ⟨idx, hidx, hfield, hvalue⟩ := h
  have ha' : 0x3D ∉ dropWords spaces 0 a := fun hmem => ha ((dropWords_suffix spaces a 0).subset hmem)
  rw [trimSpace_equation] at hidx hfield hvalue
  rw [index_equals_append ha'] at hidx
  obtain rfl := Option.some.inj hidx
  rw [List.take_left] at hfield
  rw [← List.drop_drop, List.drop_left] at hvalue
  refine ⟨hfield.trans ?_, hvalue⟩
  rw [trimSpace, trimSpace, dropWords_idem]

/-- What has no `=` is no equation. -/
theorem ReadsEquation.mem {p : GoString} {kv : GoString × GoString} (h : ReadsEquation p kv) :
    0x3D ∈ p := by
  obtain ⟨idx, hidx, -⟩ := h
  have hin := isSome_index_iff.mp (Option.isSome_iff_exists.mpr ⟨idx, hidx⟩)
  exact trimSpace_subset p (hin.subset (by decide))

/-- **The `=` of an equation is in neither its field nor its value.** -/
theorem ReadsEquation.count {p : GoString} {kv : GoString × GoString} (h : ReadsEquation p kv) :
    0x3D ∉ kv.1 ∧ kv.2.count 0x3D + 1 ≤ p.count 0x3D := by
  obtain ⟨a, b, rfl, ha⟩ := List.eq_append_cons_of_mem h.mem
  obtain ⟨hfield, hvalue⟩ := h.eq ha
  constructor
  · rw [hfield]
    exact fun hmem => ha (trimSpace_subset a hmem)
  · have hsub : kv.2.Sublist b := by
      rw [hvalue]
      exact (infix_trim _ _).sublist.trans
        ((trimSpace_sublist _).trans (prefix_trimEnd b).sublist)
    have hle := hsub.count_le 0x3D
    rw [List.count_append, List.count_cons_self]
    omega

/-- What is read behind a quote. -/
theorem trim_behind_quote {q : UInt8} (hq : isQuote q = true) (t : GoString) :
    trim (trimSpace (trimEnd (q :: t))) (str "\"'") = trim (trimEnd t) (str "\"'") := by
  have hvis := visible_of_isQuote hq
  have hend : trimEnd (q :: t) = q :: trimEnd t := trimEnd_append hvis [] t
  have hspace : trimSpace (q :: trimEnd t) = q :: trimEnd (trimEnd t) :=
    trimSpace_append_visible (f := []) rfl hvis (trimEnd t)
  rw [hend, hspace, trimEnd_idem, trim_cons_quote hq]

/-! ### Where the conditions are joined -/

/-- The offsets at which the conditions of a list are joined, each with the value before it. -/
def joints : ℕ → List (GoString × GoString) → List (ℕ × GoString)
  | _, [] => []
  | _, [_] => []
  | k, kv :: kv' :: kvs =>
    (k + kv.1.length + kv.2.length + 3, kv.2) ::
      joints (k + kv.1.length + kv.2.length + 3 + 5) (kv' :: kvs)

/-- A cut is at a joint; or one byte before it, where only the quote is lost. -/
def CutAt (o : ℕ) (j : ℕ × GoString) : Prop :=
  o = j.1 ∨ o + 1 = j.1 ∧ trimEnd j.2 = j.2

/-! ### Counting -/

/-- How many `=` the conditions of a list ask for. -/
def weight (kvs : List (GoString × GoString)) : ℕ := (kvs.map fun kv => kv.2.count 0x3D + 1).sum

theorem weight_cons (kv : GoString × GoString) (kvs : List (GoString × GoString)) :
    weight (kv :: kvs) = kv.2.count 0x3D + 1 + weight kvs := by
  rw [weight, List.map_cons, List.sum_cons]
  rfl

theorem count_behind {q : UInt8} (hq : isQuote q = true) {kvs : List (GoString × GoString)}
    (hkvs : ∀ kv ∈ kvs, 0x3D ∉ kv.1) (v : GoString) :
    (behind q v kvs).count 0x3D = v.count 0x3D + weight kvs := by
  have hne : q ≠ 0x3D := by
    rintro rfl
    exact absurd hq (by decide)
  induction kvs generalizing v with
  | nil => simp [behind, weight, hne]
  | cons kv kvs ih =>
    obtain ⟨hkv, hrest⟩ := List.forall_mem_cons.mp hkvs
    have hand : (str " AND ").count 0x3D = 0 := by decide
    rw [behind, List.count_cons_of_ne hne, List.count_append, List.count_cons_of_ne hne,
      List.count_append, hand, List.count_append, List.count_eq_zero_of_not_mem hkv,
      List.count_cons_self, ih hrest, weight_cons]
    omega

/-- The pieces of a text have no more of a byte than the text. -/
theorem sum_count_piecesFrom (x : UInt8) (s : GoString) : ∀ {start : ℕ} {os : List ℕ},
    Spaced 5 start os → ((piecesFrom s start os).map (List.count x)).sum ≤ (s.drop start).count x := by
  intro start os hspaced
  induction hspaced with
  | nil start => simp [piecesFrom]
  | @cons start o os hle hrest ih =>
    have hsplit : s.drop start = (s.take o).drop start ++ s.drop o := by
      rw [List.drop_take]
      conv_lhs => rw [← List.take_append_drop (o - start) (s.drop start), List.drop_drop]
      congr 2
      omega
    have hlater : (s.drop (o + 5)).count x ≤ (s.drop o).count x := by
      rw [← List.drop_drop]
      exact (List.drop_sublist _ _).count_le x
    rw [piecesFrom, List.map_cons, List.sum_cons, hsplit, List.count_append]
    omega

theorem weight_filterMap {read : GoString → Option (GoString × GoString)} {ps : List GoString}
    (hread : ∀ p ∈ ps, ∀ kv, read p = some kv → ReadsEquation p kv) :
    weight (ps.filterMap read) ≤ (ps.map (List.count 0x3D)).sum := by
  induction ps with
  | nil => exact le_rfl
  | cons p ps ih =>
    obtain ⟨hp, hps⟩ := List.forall_mem_cons.mp hread
    have hrest := ih hps
    rw [List.map_cons, List.sum_cons]
    cases hkv : read p with
    | none =>
      rw [List.filterMap_cons_none hkv]
      omega
    | some kv =>
      have hone := (hp kv hkv).count.2
      rw [List.filterMap_cons_some hkv, weight_cons]
      omega

/-- **A list that is read from a text asks for no more `=` than there are in it.** -/
theorem weight_le {read : GoString → Option (GoString × GoString)} {s : GoString} {start : ℕ}
    {os : List ℕ} (hspaced : Spaced 5 start os)
    (hread : ∀ p ∈ piecesFrom s start os, ∀ kv, read p = some kv → ReadsEquation p kv) :
    weight ((piecesFrom s start os).filterMap read) ≤ (s.drop start).count 0x3D :=
  (weight_filterMap hread).trans (sum_count_piecesFrom 0x3D s hspaced)

/-! ### The cuts of a parser that loses nothing -/

/-- What can be read of a text still has the `=` of the first field. -/
theorem le_length_of_count {a b : GoString} {n c : ℕ} (hc : c ≤ ((a ++ 0x3D :: b).drop n).count 0x3D)
    (hb : b.count 0x3D < c) : n ≤ a.length := by
  by_contra hn
  obtain ⟨m, rfl⟩ : ∃ m, n = a.length + (m + 1) := ⟨n - a.length - 1, by omega⟩
  rw [← List.drop_drop, List.drop_left, List.drop_succ_cons] at hc
  have hle := (List.drop_sublist m b).count_le 0x3D
  omega

/-- What stands between a value and the blank before the next field. -/
def connective (q : UInt8) (v : GoString) : GoString := q :: (v ++ q :: str " AND")

theorem length_connective (q : UInt8) (v : GoString) : (connective q v).length = v.length + 6 := by
  have hand : (str " AND").length = 4 := rfl
  rw [connective, List.length_cons, List.length_append, List.length_cons, hand]

theorem drop_connective (q : UInt8) {v : GoString} (f : GoString) {d : ℕ} (hle : v.length + 1 ≤ d) :
    (connective q v ++ 0x20 :: f).drop (d + 5) = (0x20 :: f).drop (d - (v.length + 1)) := by
  rw [show d + 5 = (connective q v).length + (d - (v.length + 1)) by
    rw [length_connective]; omega, ← List.drop_drop, List.drop_left]

theorem behind_cons (q : UInt8) (v : GoString) (kv : GoString × GoString)
    (kvs : List (GoString × GoString)) :
    behind q v (kv :: kvs) =
      connective q v ++ (0x20 :: kv.1 ++ 0x3D :: behind q kv.2 kvs) := by
  rw [behind, connective, show str " AND " = str " AND" ++ [0x20] from rfl]
  simp

/-- No field is read behind two bytes of the connective. -/
theorem ne_trimSpace_connective (f : GoString) : f ≠ trimSpace (0x44 :: 0x20 :: f) := by
  intro h
  have hread : trimSpace (0x44 :: 0x20 :: f) = 0x44 :: trimEnd (0x20 :: f) :=
    trimSpace_append_visible (f := []) rfl (b := 0x44) (by decide) _
  rw [hread] at h
  obtain ⟨y, rfl⟩ : ∃ y, f = 0x44 :: y := ⟨_, h⟩
  have hy : y = trimEnd (0x20 :: 0x44 :: y) := List.tail_eq_of_cons_eq h
  have hend : trimEnd (0x20 :: 0x44 :: y) = 0x20 :: 0x44 :: trimEnd y :=
    trimEnd_append (b := 0x44) (by decide) [0x20] y
  -- what is left is trimmed already, so the text is longer than itself
  have hidem : trimEnd y = y := by rw [hy, trimEnd_idem]
  rw [hend, hidem] at hy
  have hlen := congrArg List.length hy
  simp only [List.length_cons] at hlen
  omega

section Necessary

variable {q : UInt8} (hq : isQuote q = true) {s : GoString}
  {read : GoString → Option (GoString × GoString)}

include hq

/-- How much of a text is behind the first `=` of a piece that a value is read from: nothing, and the
value is empty; or more than the value, and the value is trimmed if it is only one byte more. -/
theorem room_of_reads {v : GoString} (hv : ∀ b ∈ v, isQuote b = false) {t : GoString} {d : ℕ}
    (h : v = trim (trimSpace (trimEnd ((q :: (v ++ t)).take d))) (str "\"'")) :
    d = 0 ∧ v = [] ∨ v.length + 1 ≤ d ∧ (d = v.length + 1 → trimEnd v = v) := by
  rcases d with _ | d
  · exact .inl ⟨rfl, h⟩
  · rw [List.take_succ_cons, trim_behind_quote hq] at h
    have hlen := congrArg List.length h
    have htrim := (infix_trim (trimEnd ((v ++ t).take d)) (str "\"'")).length_le
    have hend := (prefix_trimEnd ((v ++ t).take d)).length_le
    have htake := List.length_take_le d (v ++ t)
    refine .inr ⟨by omega, fun hd => ?_⟩
    -- one byte more than the value, the quote before it
    obtain rfl : d = v.length := by omega
    have hbare : Bare (trimEnd v) :=
      ⟨fun b hb => hv b ((prefix_trimEnd v).subset (List.mem_of_mem_head? hb)),
        fun b hb => hv b ((prefix_trimEnd v).subset (List.mem_of_mem_getLast? hb))⟩
    rw [List.take_left, trim_of_bare hbare] at h
    exact h.symm

omit hq in
/-- A cut behind which a field is read as itself is at a joint, or one byte before it. -/
theorem cut_of_field {v f : GoString} (hf : f ≠ []) {d : ℕ}
    (hroom : d = 0 ∧ v = [] ∨ v.length + 1 ≤ d ∧ (d = v.length + 1 → trimEnd v = v))
    (h : f = trimSpace ((connective q v ++ 0x20 :: f).drop (d + 5))) :
    (d = v.length + 2 ∨ d = v.length + 1 ∧ trimEnd v = v) ∧ trimSpace f = f := by
  rcases hroom with ⟨rfl, rfl⟩ | ⟨hle, htrim⟩
  · exact absurd h (ne_trimSpace_connective f)
  · obtain ⟨m, rfl⟩ := Nat.exists_eq_add_of_le hle
    rw [drop_connective q f hle, Nat.add_sub_cancel_left] at h
    rcases m with _ | _ | m
    · rw [List.drop_zero, trimSpace_space] at h
      exact ⟨.inr ⟨rfl, htrim rfl⟩, h.symm⟩
    · exact ⟨.inl rfl, h.symm⟩
    · -- a byte of the field is lost
      have hlen := (trimSpace_sublist ((0x20 :: f).drop (m + 1 + 1))).length_le
      rw [← h, List.length_drop, List.length_cons] at hlen
      have hpos := List.length_pos_iff.mpr hf
      omega

/-- **A parser that returns the whole list cuts where its conditions are joined.** -/
theorem joints_of_reads : ∀ {os : List ℕ} {start : ℕ} {X f v : GoString}
    {rest : List (GoString × GoString)}, Spaced 5 start os → (∀ o ∈ os, o + 5 ≤ s.length) →
    (∀ p ∈ piecesFrom s start os, ∀ kv, read p = some kv → ReadsEquation p kv) →
    s.drop start = X ++ 0x3D :: behind q v rest → 0x3D ∉ X → X.length ≤ f.length + 4 →
    (∀ kv ∈ (f, v) :: rest, kv.1 ≠ [] ∧ 0x3D ∉ kv.1 ∧ ∀ b ∈ kv.2, isQuote b = false) →
    (piecesFrom s start os).filterMap read = (f, v) :: rest →
    f = trimSpace X ∧ (∀ kv ∈ rest, trimSpace kv.1 = kv.1) ∧
      List.Forall₂ CutAt os (joints (start + X.length - f.length) ((f, v) :: rest)) := by
  intro os
  induction os with
  | nil =>
    intro start X f v rest _ _ hread htext hX _ _ hall
    -- one piece, so one condition
    rw [piecesFrom] at hread hall
    cases hkv : read (s.drop start) with
    | none =>
      rw [List.filterMap_cons_none hkv] at hall
      cases hall
    | some kv =>
      rw [List.filterMap_cons_some hkv, List.filterMap_nil] at hall
      obtain ⟨rfl, rfl⟩ := List.cons.inj hall
      have hreads := hread _ List.mem_cons_self _ hkv
      rw [htext] at hreads
      exact ⟨(hreads.eq hX).1, fun kv hkv => absurd hkv List.not_mem_nil, .nil⟩
  | cons o os ih =>
    intro start X f v rest hspaced hin hread htext hX hlen hkvs hall
    obtain ⟨hle, hspaced'⟩ : start ≤ o ∧ Spaced 5 (o + 5) os := by
      cases hspaced with
      | cons hle hrest => exact ⟨hle, hrest⟩
    obtain ⟨n, rfl⟩ := Nat.exists_eq_add_of_le hle
    obtain ⟨hin₀, hin'⟩ := List.forall_mem_cons.mp hin
    have hrest := (List.forall_mem_cons.mp hkvs).2
    have hv : ∀ b ∈ v, isQuote b = false := (hkvs _ List.mem_cons_self).2.2
    have hfields : ∀ kv ∈ rest, 0x3D ∉ kv.1 := fun kv hkv => (hrest kv hkv).2.1
    have hpiece : (s.take (start + n)).drop start = (s.drop start).take n := by
      rw [List.drop_take, Nat.add_sub_cancel_left]
    have hlater : s.drop (start + n + 5) = (s.drop start).drop (n + 5) := by
      rw [List.drop_drop, Nat.add_assoc]
    rw [piecesFrom, hpiece] at hread hall
    obtain ⟨hread₀, hread'⟩ := List.forall_mem_cons.mp hread
    have hweight := weight_le hspaced' hread'
    rw [hlater, htext] at hweight
    rw [htext] at hread₀ hall
    have hbehind := count_behind hq hfields v
    have hall₀ : weight ((f, v) :: rest) = v.count 0x3D + 1 + weight rest := weight_cons _ _
    by_cases hn : n ≤ X.length
    · -- a piece of the field: nothing is read from it, and what is behind it is too short
      have hnone : read ((X ++ 0x3D :: behind q v rest).take n) = none := by
        refine Option.eq_none_iff_forall_ne_some.mpr fun kv hkv => hX ?_
        have hmem := (hread₀ kv hkv).mem
        rw [List.take_append_of_le_length hn] at hmem
        exact List.mem_of_mem_take hmem
      rw [List.filterMap_cons_none hnone] at hall
      rw [hall] at hweight
      have hfit := le_length_of_count hweight (by omega)
      rw [htext, List.drop_append_of_le_length hfit] at hlater
      have hdrop : 0x3D ∉ X.drop (n + 5) := fun hmem => hX (List.mem_of_mem_drop hmem)
      obtain ⟨hfield, -⟩ := ih hspaced' hin' hread' hlater hdrop
        (by rw [List.length_drop]; omega) hkvs hall
      have hshort := (trimSpace_sublist (X.drop (n + 5))).length_le
      rw [← hfield, List.length_drop] at hshort
      omega
    · -- a piece with the first `=`: the first condition is read from it
      obtain ⟨d, rfl⟩ : ∃ d, n = X.length + (d + 1) := ⟨n - X.length - 1, by omega⟩
      rw [List.take_length_add_append, List.take_succ_cons] at hread₀ hall
      have hbeyond : (X ++ 0x3D :: behind q v rest).drop (X.length + (d + 1) + 5) =
          (behind q v rest).drop (d + 5) := by
        rw [show X.length + (d + 1) + 5 = X.length + (d + 5 + 1) by omega, ← List.drop_drop,
          List.drop_left, List.drop_succ_cons]
      rw [htext, hbeyond] at hlater
      rw [hbeyond] at hweight
      cases hkv : read (X ++ 0x3D :: (behind q v rest).take d) with
      | none =>
        rw [List.filterMap_cons_none hkv] at hall
        have hle := (List.drop_sublist (d + 5) (behind q v rest)).count_le 0x3D
        rw [hall] at hweight
        omega
      | some kv =>
        rw [List.filterMap_cons_some hkv] at hall
        obtain ⟨rfl, hall'⟩ := List.cons.inj hall
        obtain ⟨hfield, hvalue⟩ : f = trimSpace X ∧
            v = trim (trimSpace (trimEnd ((behind q v rest).take d))) (str "\"'") :=
          (hread₀ _ hkv).eq hX
        have hXle : f.length ≤ X.length := by
          rw [hfield]
          exact (trimSpace_sublist X).length_le
        have htotal := congrArg List.length htext
        rw [List.length_drop, List.length_append, List.length_cons] at htotal
        cases rest with
        | nil =>
          -- behind the only condition there is no room for a cut
          rw [behind, List.length_cons, List.length_append, List.length_singleton] at htotal
          rcases room_of_reads hq hv hvalue with ⟨rfl, rfl⟩ | ⟨hroom, -⟩
          · rw [List.length_nil] at htotal
            omega
          · omega
        | cons kv' rest =>
          obtain ⟨f', v'⟩ := kv'
          have hrest' := (List.forall_mem_cons.mp hrest).2
          have hne' : f' ≠ [] := (hrest _ List.mem_cons_self).1
          have hf' : 0x3D ∉ f' := (hrest _ List.mem_cons_self).2.1
          have hroom := room_of_reads hq hv hvalue
          have hjoint : behind q v ((f', v') :: rest) =
              connective q v ++ 0x20 :: f' ++ 0x3D :: behind q v' rest := by
            rw [behind_cons, ← List.append_assoc]
          rw [hjoint] at hweight hlater
          have hweight' : weight ((f', v') :: rest) = v'.count 0x3D + 1 + weight rest :=
            weight_cons _ _
          rw [hall'] at hweight
          have hcount := count_behind hq (fun kv hkv => (hrest' kv hkv).2.1) v'
          have hfit := le_length_of_count hweight (by omega)
          rw [List.drop_append_of_le_length hfit] at hlater
          have hlength : ((connective q v ++ 0x20 :: f').drop (d + 5)).length =
              v.length + 6 + (f'.length + 1) - (d + 5) := by
            rw [List.length_drop, List.length_append, length_connective, List.length_cons]
          have hdrop : 0x3D ∉ (connective q v ++ 0x20 :: f').drop (d + 5) := by
            have hblank : 0x3D ∉ 0x20 :: f' := List.not_mem_cons_of_ne_of_not_mem (by decide) hf'
            rcases hroom with ⟨rfl, rfl⟩ | ⟨hle, -⟩
            · exact List.not_mem_cons_of_ne_of_not_mem (by decide) hblank
            · rw [drop_connective q f' hle]
              exact fun hmem => hblank (List.mem_of_mem_drop hmem)
          have hshort : v.length + 6 + (f'.length + 1) - (d + 5) ≤ f'.length + 4 := by
            rcases hroom with ⟨rfl, rfl⟩ | ⟨hle, -⟩
            · rw [List.length_nil]
              omega
            · omega
          obtain ⟨hfield', htrimmed, hcuts⟩ :=
            ih hspaced' hin' hread' hlater hdrop (hlength ▸ hshort) hrest hall'
          obtain ⟨hcut, hself⟩ := cut_of_field hne' hroom hfield'
          rw [hlength] at hcuts
          refine ⟨hfield, List.forall_mem_cons.mpr ⟨hself, htrimmed⟩, .cons ?_ ?_⟩
          · rw [CutAt]
            rcases hcut with rfl | ⟨rfl, hend⟩
            · exact .inl (by simp only; omega)
            · exact .inr ⟨by simp only; omega, hend⟩
          · convert hcuts using 2
            simp only
            omega

end Necessary

/-! ### A text that is cut where its conditions are joined -/

/-- What is left of a condition between two cuts: all of it, or all but the last quote. -/
def PieceOf (q : UInt8) (t : GoString) (kv : GoString × GoString) : Prop :=
  t = printQuoted q kv ∨ t = kv.1 ++ 0x3D :: q :: kv.2 ∧ trimEnd kv.2 = kv.2

theorem printQuoted_eq (q : UInt8) (kv : GoString × GoString) :
    printQuoted q kv = kv.1 ++ 0x3D :: q :: (kv.2 ++ [q]) := by
  rw [printQuoted, printCondition, FilterOp.text_equal]
  rfl

theorem length_printQuoted (q : UInt8) (kv : GoString × GoString) :
    (printQuoted q kv).length = kv.1.length + kv.2.length + 3 := by
  rw [printQuoted_eq]
  simp only [List.length_append, List.length_cons, List.length_nil]
  omega

theorem printFilter_cons_cons (q : UInt8) (kv kv' : GoString × GoString)
    (kvs : List (GoString × GoString)) :
    printFilter q (kv :: kv' :: kvs) =
      printQuoted q kv ++ (str " AND " ++ printFilter q (kv' :: kvs)) := by
  simp [printFilter, join]

/-- A piece of a condition stands as it is, whatever blanks are around it. -/
theorem PieceOf.trimmed {q : UInt8} (hq : isQuote q = true) {t : GoString}
    {kv : GoString × GoString} (h : PieceOf q t kv) (hkv : trimSpace kv.1 = kv.1) :
    trimSpace t = t := by
  have hvis := visible_of_isQuote hq
  rcases h with rfl | ⟨rfl, hend⟩
  · rw [printQuoted_eq, trimSpace_equation, dropWords_of_trimmed hkv, ← List.cons_append,
      trimEnd_append hvis]
    rfl
  · have hquote : trimEnd (q :: kv.2) = q :: trimEnd kv.2 := trimEnd_append hvis [] kv.2
    rw [trimSpace_equation, dropWords_of_trimmed hkv, hquote, hend]

/-- One cut: what is before it, and what is behind the five bytes that are left out. -/
theorem cut_once {s a w c : GoString} {start : ℕ} (h : s.drop start = a ++ (w ++ c))
    (hw : w.length = 5) :
    (s.take (start + a.length)).drop start = a ∧ s.drop (start + a.length + 5) = c := by
  constructor
  · rw [List.drop_take, Nat.add_sub_cancel_left, h, List.take_left]
  · rw [Nat.add_assoc, ← List.drop_drop, h, ← List.append_assoc, ← hw, ← List.length_append,
      List.drop_left]

/-- **Cut at the joints, a text falls into its conditions.** -/
theorem pieces_of_joints {q : UInt8} (hq : isQuote q = true) {s : GoString} :
    ∀ {kvs : List (GoString × GoString)} {kv : GoString × GoString} {os : List ℕ} {start : ℕ}
      {blank : GoString}, (∀ kv' ∈ kv :: kvs, trimSpace kv'.1 = kv'.1) →
      blank = [] ∨ blank = [0x20] → s.drop start = blank ++ printFilter q (kv :: kvs) →
      List.Forall₂ CutAt os (joints (start + blank.length) (kv :: kvs)) →
      List.Forall₂ (PieceOf q) ((piecesFrom s start os).map trimSpace) (kv :: kvs) := by
  intro kvs
  induction kvs with
  | nil =>
    intro kv os start blank htrim hblank htext hcuts
    cases hcuts
    have hpiece : PieceOf q (printQuoted q kv) kv := .inl rfl
    have hone : printFilter q [kv] = printQuoted q kv := by simp [printFilter, join]
    rw [piecesFrom, htext, hone, List.map_singleton]
    refine .cons ?_ .nil
    have hspace : trimSpace (blank ++ printQuoted q kv) = printQuoted q kv := by
      rcases hblank with rfl | rfl
      · exact hpiece.trimmed hq (htrim kv List.mem_cons_self)
      · rw [List.singleton_append, trimSpace_space]
        exact hpiece.trimmed hq (htrim kv List.mem_cons_self)
    rwa [hspace]
  | cons kv' kvs ih =>
    intro kv os start blank htrim hblank htext hcuts
    obtain ⟨hkv, hrest⟩ := List.forall_mem_cons.mp htrim
    rw [joints] at hcuts
    obtain ⟨o, os, hcut, hcuts, rfl⟩ := List.forall₂_cons_right_iff.mp hcuts
    rw [printFilter_cons_cons] at htext
    rw [piecesFrom, List.map_cons]
    have hspace : ∀ t, PieceOf q t kv → trimSpace (blank ++ t) = t := by
      intro t ht
      rcases hblank with rfl | rfl
      · exact ht.trimmed hq hkv
      · rw [List.singleton_append, trimSpace_space]
        exact ht.trimmed hq hkv
    rcases hcut with hat | ⟨hbefore, hend⟩
    · have hpiece : PieceOf q (printQuoted q kv) kv := .inl rfl
      rw [← List.append_assoc] at htext
      obtain ⟨hfront, hlater⟩ := cut_once htext rfl
      have ho : start + (blank ++ printQuoted q kv).length = o := by
        rw [List.length_append, length_printQuoted]
        simp only at hat
        omega
      rw [ho] at hfront hlater
      rw [hfront, hspace _ hpiece]
      refine .cons hpiece (ih hrest (.inl rfl) hlater ?_)
      rwa [show o + 5 + ([] : GoString).length = start + blank.length + kv.1.length + kv.2.length + 3 + 5
        by simp only at hat; simp [hat]]
    · -- the cut takes the last quote, and leaves the blank behind the connective
      have hpiece : PieceOf q (kv.1 ++ 0x3D :: q :: kv.2) kv := .inr ⟨rfl, hend⟩
      have hsplit : blank ++ (printQuoted q kv ++ (str " AND " ++ printFilter q (kv' :: kvs))) =
          (blank ++ (kv.1 ++ 0x3D :: q :: kv.2)) ++
            (q :: str " AND" ++ 0x20 :: printFilter q (kv' :: kvs)) := by
        rw [printQuoted_eq, show str " AND " = str " AND" ++ [0x20] from rfl]
        simp
      rw [hsplit] at htext
      obtain ⟨hfront, hlater⟩ := cut_once htext rfl
      have ho : start + (blank ++ (kv.1 ++ 0x3D :: q :: kv.2)).length = o := by
        simp only [List.length_append, List.length_cons]
        simp only at hbefore
        omega
      rw [ho] at hfront hlater
      rw [hfront, hspace _ hpiece]
      refine .cons hpiece (ih hrest (.inr rfl) hlater ?_)
      rwa [show o + 5 + ([0x20] : GoString).length =
        start + blank.length + kv.1.length + kv.2.length + 3 + 5 by
          simp only at hbefore; rw [List.length_singleton]; omega]

/-! ### Each condition by itself -/

/-- A quote at the end of a text hides no operator of it. -/
theorem offers_concat {q : UInt8} (hq : isQuote q = true) (s : GoString) (op : FilterOp) :
    offers (s ++ [q]) op = offers s op := by
  have hnot : q ∉ op.text := by
    rcases (isQuote_iff q).mp hq with rfl | rfl <;> cases op <;> decide
  have hindex : index op.text (s ++ [q]) = index op.text s := by
    obtain ⟨c, cs, htext, -⟩ := op.exists_text
    rw [htext] at hnot ⊢
    induction s with
    | nil =>
      rw [List.nil_append, index, index, if_neg, index, if_neg (List.cons_ne_nil c cs)]
      · rfl
      · rw [List.isPrefixOf_iff_prefix, List.cons_prefix_cons]
        exact fun h => hnot (h.1 ▸ List.mem_cons_self)
    | cons b s ih =>
      have hpre : (c :: cs).isPrefixOf (b :: (s ++ [q])) = (c :: cs).isPrefixOf (b :: s) := by
        rw [Bool.eq_iff_iff, List.isPrefixOf_iff_prefix, List.isPrefixOf_iff_prefix,
          ← List.cons_append]
        exact prefix_append_cons_iff hnot
      rw [List.cons_append, index, index, hpre, ih]
  rw [offers, offers, hindex]
  cases hidx : index op.text s with
  | none => rfl
  | some idx =>
    have hle := (index_eq_some hidx).1
    simp only [List.take_append_of_le_length (by omega : idx ≤ s.length)]

/-- What the parser of filter expressions makes of an equation. -/
def equation (kv : GoString × GoString) : FilterCondition :=
  { field := kv.1, op := .equal, value := kv.2, compiled := none }

/-- A condition with `=` is read as an equation. -/
theorem readsEquation_of_parse {lib : StdLib} {p : GoString} {c : FilterCondition}
    (h : parseCondition lib (trimSpace p) = some c) (hop : c.op = .equal) :
    ReadsEquation p (c.field, c.value) := by
  obtain ⟨-, hat⟩ := find?_of_parseCondition h
  obtain ⟨idx, hidx, hfield, -, hvalue, -⟩ := conditionAt_eq_some hat
  rw [hop] at hidx hvalue
  exact ⟨idx, hidx, hfield, hvalue⟩

/-- A pair of a field and a value that the parser of filter expressions can read. -/
structure Equation (q : UInt8) (kv : GoString × GoString) : Prop where
  named : kv.1 ≠ []
  single : 0x3D ∉ kv.1
  noOther : ∀ op ∈ triedBefore .equal, ¬offers (printQuoted q kv) op = true

/-- What stands behind the field of a piece: the operator, and the value in its quotes. -/
theorem PieceOf.value {q : UInt8} (hq : isQuote q = true) {t : GoString} {kv : GoString × GoString}
    (h : PieceOf q t kv) (hv : ∀ b ∈ kv.2, isQuote b = false) :
    ∃ u, t = kv.1 ++ 0x3D :: u ∧ trim (trimSpace u) (str "\"'") = kv.2 := by
  have hvis := visible_of_isQuote hq
  have hbare : Bare kv.2 := ⟨fun b hb => hv b (List.mem_of_mem_head? hb),
    fun b hb => hv b (List.mem_of_mem_getLast? hb)⟩
  have hfront : ∀ u, trimSpace (q :: u) = q :: trimEnd u := fun u =>
    trimSpace_append_visible (f := []) rfl hvis u
  rcases h with rfl | ⟨rfl, hend⟩
  · refine ⟨q :: (kv.2 ++ [q]), printQuoted_eq q kv, ?_⟩
    have hlast : trimEnd (kv.2 ++ [q]) = kv.2 ++ [q] := trimEnd_append hvis kv.2 []
    rw [hfront, hlast, trim_cons_quote hq, trim_concat_quote hq, trim_of_bare hbare]
  · refine ⟨q :: kv.2, rfl, ?_⟩
    rw [hfront, hend, trim_cons_quote hq, trim_of_bare hbare]

/-- **When a condition is read as itself.** -/
theorem parseCondition_piece_iff (lib : StdLib) {q : UInt8} (hq : isQuote q = true)
    {kv : GoString × GoString} (hkv : trimSpace kv.1 = kv.1) (hv : ∀ b ∈ kv.2, isQuote b = false)
    {t : GoString} (ht : PieceOf q t kv) :
    parseCondition lib t = some (equation kv) ↔ Equation q kv := by
  -- a quote more or less behind the value makes no operator
  have hoffers : ∀ op, offers t op = offers (printQuoted q kv) op := by
    intro op
    rcases ht with rfl | ⟨rfl, -⟩
    · rfl
    · rw [printQuoted_eq, ← offers_concat hq]
      simp
  have htrim := ht.trimmed hq hkv
  constructor
  · intro h
    have hreads := readsEquation_of_parse (htrim.symm ▸ h) rfl
    have hfind := (find?_of_parseCondition h).1
    refine ⟨field_ne_nil h, hreads.count.1, fun op hop => ?_⟩
    rw [← hoffers]
    exact ((find?_eq_some_iff_takeWhile (mem_conditionOps _)).mp hfind).2 op hop
  · rintro ⟨hne, hsingle, hother⟩
    obtain ⟨u, rfl, hvalue⟩ := ht.value hq hv
    have hidx : index FilterOp.equal.text (kv.1 ++ 0x3D :: u) = some kv.1.length :=
      index_equals_append hsingle u
    have htake : (kv.1 ++ 0x3D :: u).take kv.1.length = kv.1 := List.take_left
    have hdrop : (kv.1 ++ 0x3D :: u).drop (kv.1.length + FilterOp.equal.text.length) = u := by
      rw [FilterOp.text_equal, ← List.drop_drop, List.drop_left]
      rfl
    have hown : offers (kv.1 ++ 0x3D :: u) .equal = true := by
      rw [offers, hidx]
      simp [htake, hkv, hne]
    have hfind : conditionOps.find? (offers (kv.1 ++ 0x3D :: u)) = some .equal :=
      (find?_eq_some_iff_takeWhile (mem_conditionOps _)).mpr
        ⟨hown, fun op hop => by rw [hoffers]; exact hother op hop⟩
    rw [parseCondition, parseConditionFrom_eq, hfind, Option.bind_some, conditionAt, hidx]
    simp only [Option.bind_some, htake, hdrop, hkv, hvalue]
    rfl

/-! ### The parser of filter expressions -/

/-- As many results as texts: each text gives its own. -/
theorem exists_of_filterMap {α β γ : Type} {r : α → β → Prop} {g : α → Option γ} {m : β → γ}
    {l : List α} {l' : List β} (h : List.Forall₂ r l l') (hall : l.filterMap g = l'.map m) :
    ∀ b ∈ l', ∃ a, r a b ∧ g a = some (m b) := by
  induction h with
  | nil => exact fun b hb => absurd hb List.not_mem_nil
  | @cons a b l l' hab hrest ih =>
    cases hg : g a with
    | none =>
      have hle := List.length_filterMap_le g l
      rw [List.filterMap_cons_none hg] at hall
      rw [hall, List.length_map, List.length_cons, hrest.length_eq] at hle
      omega
    | some c =>
      rw [List.filterMap_cons_some hg, List.map_cons] at hall
      obtain ⟨rfl, hall'⟩ := List.cons.inj hall
      exact List.forall_mem_cons.mpr ⟨⟨a, hab, hg⟩, ih hall'⟩

theorem exists_mem_of_forall₂ {α β : Type} {r : α → β → Prop} {l : List α} {l' : List β}
    (h : List.Forall₂ r l l') : ∀ a ∈ l, ∃ b ∈ l', r a b := by
  induction h with
  | nil => exact fun a ha => absurd ha List.not_mem_nil
  | cons hab _ ih =>
    refine List.forall_mem_cons.mpr ⟨⟨_, List.mem_cons_self, hab⟩, fun a ha => ?_⟩
    obtain ⟨b, hb, hr⟩ := ih a ha
    exact ⟨b, List.mem_cons_of_mem _ hb, hr⟩

theorem filterMap_of_forall₂ {α β γ : Type} {r : α → β → Prop} {g : α → Option γ} {m : β → γ}
    {l : List α} {l' : List β} (h : List.Forall₂ r l l')
    (heach : ∀ b ∈ l', ∀ a, r a b → g a = some (m b)) : l.filterMap g = l'.map m := by
  induction h with
  | nil => rfl
  | @cons a b l l' hab _ ih =>
    obtain ⟨hb, hrest⟩ := List.forall_mem_cons.mp heach
    rw [List.filterMap_cons_some (hb a hab), ih hrest, List.map_cons]

/-- What the parser returns, by the pieces. -/
theorem parseFilterExpr_eq (lib : StdLib) {expr : GoString} (hne : trimSpace expr ≠ []) :
    parseFilterExpr lib expr = if CutsInside (trimSpace expr) then
      some (((pieces (trimSpace expr)).map trimSpace).filterMap (parseCondition lib)) else none := by
  have hnil : parseCondition lib [] = none := rfl
  have hfilter : ∀ parts : List GoString, (parts.filter (· ≠ [])).filterMap (parseCondition lib) =
      parts.filterMap (parseCondition lib) := by
    intro parts
    rw [List.filterMap_filter]
    refine List.filterMap_congr fun part _ => ?_
    by_cases hpart : part = []
    · simp [hpart, hnil]
    · simp [hpart]
  rw [parseFilterExpr, if_neg hne, ← (splitAnd_eq_splitAND (trimSpace expr)).1, splitAnd_eq]
  split_ifs
  · rw [Option.map_some, hfilter]
  · rfl

theorem trimEnd_behind {q : UInt8} (hq : isQuote q = true) (v : GoString)
    (kvs : List (GoString × GoString)) : trimEnd (behind q v kvs) = behind q v kvs := by
  induction kvs generalizing v with
  | nil => exact trimEnd_append (visible_of_isQuote hq) (q :: v) []
  | cons kv kvs ih =>
    rw [behind_cons, ← List.append_assoc, trimEnd_append (b := 0x3D) (by decide), ih]

theorem trimSpace_printFilter {q : UInt8} (hq : isQuote q = true) (kv : GoString × GoString)
    (kvs : List (GoString × GoString)) :
    trimSpace (printFilter q (kv :: kvs)) = dropWords spaces 0 kv.1 ++ 0x3D :: behind q kv.2 kvs := by
  rw [printFilter_cons, trimSpace_equation, trimEnd_behind hq]

theorem joints_inside (q : UInt8) (kvs : List (GoString × GoString)) :
    ∀ k, ∀ j ∈ joints k kvs, j.1 + 5 ≤ k + (printFilter q kvs).length := by
  induction kvs with
  | nil => exact fun k j hj => absurd hj List.not_mem_nil
  | cons kv kvs ih =>
    intro k j hj
    cases kvs with
    | nil => exact absurd hj List.not_mem_nil
    | cons kv' kvs =>
      have hand : (str " AND ").length = 5 := rfl
      rw [printFilter_cons_cons, List.length_append, List.length_append, length_printQuoted, hand]
      rcases List.mem_cons.mp hj with rfl | hj
      · simp only
        omega
      · have := ih _ j hj
        omega

/-- Lower-casing shows the connectives of a printed list where its conditions are joined. -/
def CutAtJoints (q : UInt8) (kvs : List (GoString × GoString)) : Prop :=
  List.Forall₂ CutAt (cuts andSep (toLower (printFilter q kvs))) (joints 0 kvs)

theorem CutAtJoints.inside {q : UInt8} {kvs : List (GoString × GoString)} (h : CutAtJoints q kvs) :
    CutsInside (printFilter q kvs) := by
  intro o ho
  obtain ⟨j, hj, hcut⟩ := exists_mem_of_forall₂ h o ho
  have hle := joints_inside q kvs 0 j hj
  rcases hcut with hat | ⟨hbefore, -⟩ <;> omega

/-- **The lists that the parser of filter expressions returns**: those whose fields are trimmed,
whose conditions are read as themselves, and whose text is cut where they are joined. -/
theorem parseFilterExpr_printFilter_iff (lib : StdLib) {q : UInt8} (hq : isQuote q = true)
    {kvs : List (GoString × GoString)} (hvalues : ∀ kv ∈ kvs, ∀ b ∈ kv.2, isQuote b = false) :
    parseFilterExpr lib (printFilter q kvs) = some (kvs.map equation) ↔
      (∀ kv ∈ kvs, trimSpace kv.1 = kv.1 ∧ Equation q kv) ∧ CutAtJoints q kvs := by
  cases kvs with
  | nil => exact iff_of_true rfl ⟨fun kv hkv => absurd hkv List.not_mem_nil, .nil⟩
  | cons kv kvs =>
    have htext := trimSpace_printFilter hq kv kvs
    have hne : trimSpace (printFilter q (kv :: kvs)) ≠ [] := by
      rw [htext]
      simp
    rw [parseFilterExpr_eq lib hne]
    constructor
    · intro h
      split_ifs at h with hinside
      have hall := Option.some.inj h
      let read (p : GoString) : Option (GoString × GoString) :=
        (parseCondition lib (trimSpace p)).map fun c => (c.field, c.value)
      have hread : (pieces (trimSpace (printFilter q (kv :: kvs)))).filterMap read = kv :: kvs := by
        have hmap := congrArg (List.map fun c : FilterCondition => (c.field, c.value)) hall
        rw [List.map_filterMap, List.filterMap_map, List.map_map] at hmap
        exact hmap.trans (List.map_id _)
      have hreads : ∀ p ∈ pieces (trimSpace (printFilter q (kv :: kvs))), ∀ kv', read p = some kv' →
          kv'.1 ≠ [] ∧ ReadsEquation p kv' := by
        intro p hp kv' hkv'
        obtain ⟨c, hc, rfl⟩ := Option.map_eq_some_iff.mp hkv'
        have hmem : c ∈ (kv :: kvs).map equation := by
          rw [← hall]
          exact List.mem_filterMap.mpr ⟨_, List.mem_map_of_mem hp, hc⟩
        obtain ⟨kv'', -, rfl⟩ := List.mem_map.mp hmem
        exact ⟨field_ne_nil hc, readsEquation_of_parse hc rfl⟩
      have hfields : ∀ kv' ∈ kv :: kvs, kv'.1 ≠ [] ∧ 0x3D ∉ kv'.1 ∧ ∀ b ∈ kv'.2, isQuote b = false := by
        intro kv' hkv'
        obtain ⟨p, hp, hpread⟩ := List.mem_filterMap.mp (hread ▸ hkv')
        obtain ⟨hnamed, hreads'⟩ := hreads p hp kv' hpread
        exact ⟨hnamed, hreads'.count.1, hvalues kv' hkv'⟩
      have hsuffix := dropWords_suffix spaces kv.1 0
      obtain ⟨hfield, htrimmed, hcuts⟩ := joints_of_reads hq
        (spaced_cutsFrom andSep_ne_nil (toLower (trimSpace (printFilter q (kv :: kvs)))) 0 0)
        hinside (fun p hp kv' hkv' => (hreads p hp kv' hkv').2) htext
        (fun hmem => (hfields kv List.mem_cons_self).2.1 (hsuffix.subset hmem))
        (hsuffix.length_le.trans (Nat.le_add_right _ 4)) hfields hread
      -- the first field has no blanks to lose, so the text is the one that was printed
      have hle := (trimSpace_sublist (dropWords spaces 0 kv.1)).length_le
      rw [← hfield] at hle
      have hfront := hsuffix.eq_of_length_le hle
      rw [hfront] at hfield htext hcuts
      have hself : trimSpace (printFilter q (kv :: kvs)) = printFilter q (kv :: kvs) := by
        rw [htext, printFilter_cons]
      rw [Nat.zero_add, Nat.sub_self, ← cuts, hself] at hcuts
      have htrim : ∀ kv' ∈ kv :: kvs, trimSpace kv'.1 = kv'.1 :=
        List.forall_mem_cons.mpr ⟨hfield.symm, htrimmed⟩
      rw [hself] at hall
      have hpieces := @pieces_of_joints q hq (printFilter q (kv :: kvs)) kvs kv _ 0 [] htrim
        (.inl rfl) rfl hcuts
      refine ⟨fun kv' hkv' => ⟨htrim kv' hkv', ?_⟩, hcuts⟩
      obtain ⟨t, ht, hparse⟩ := exists_of_filterMap hpieces hall kv' hkv'
      exact (parseCondition_piece_iff lib hq (htrim kv' hkv') (hvalues kv' hkv') ht).mp hparse
    · rintro ⟨heach, hcuts⟩
      have hself : trimSpace (printFilter q (kv :: kvs)) = printFilter q (kv :: kvs) := by
        rw [htext, dropWords_of_trimmed (heach kv List.mem_cons_self).1, printFilter_cons]
      have hpieces := @pieces_of_joints q hq (printFilter q (kv :: kvs)) kvs kv _ 0 []
        (fun kv' hkv' => (heach kv' hkv').1) (.inl rfl) rfl hcuts
      rw [hself, if_pos hcuts.inside, pieces]
      refine congrArg some (filterMap_of_forall₂ hpieces fun kv' hkv' t ht => ?_)
      obtain ⟨htrim, heq⟩ := heach kv' hkv'
      exact (parseCondition_piece_iff lib hq htrim (hvalues kv' hkv') ht).mpr heq

end Query

end Xsiam
