import Xsiam.Query.Quoted

/-!
# What both parsers read as it is written

A printed list of equations is the filter expression of a rule, or behind a dataset clause the
filter stage of a query. Of a query no line, no comment and no stage may begin in a field or a value
(`Xsiam.Query.oneStage_of_mem_queryStages`); then the stage is split and read as a filter expression
is. Its conditions are kept in a map, so a field can have one of them only.

Together: which lists both parsers read verbatim (`Xsiam.Query.verbatim_iff`).
-/

namespace Xsiam

namespace Query

open Go Etl Separator

/-! ### Texts that stay in one stage -/

theorem OneStage.of_infix {s t : GoString} (h : OneStage s) (ht : t <:+: s) : OneStage t :=
  ⟨fun hmem => h.newline (ht.subset hmem), fun hin => h.comment (hin.trans ht),
    fun hmem => h.noBar (ht.subset hmem)⟩

/-- A text that does not have a byte stands on one side of it. -/
theorem infix_append_cons {w a b : GoString} {c : UInt8} (hc : c ∉ w) (h : w <:+: a ++ c :: b) :
    w <:+: a ∨ w <:+: b := by
  rcases List.infix_append_iff.mp h with h | h | ⟨u, t, rfl, hu, ht⟩
  · exact .inl h
  · rcases List.infix_cons_iff.mp h with hpre | h
    · cases w with
      | nil => exact .inl (List.nil_infix)
      | cons x w =>
        rw [List.cons_prefix_cons] at hpre
        exact absurd (hpre.1 ▸ List.mem_cons_self) hc
    · exact .inr h
  · -- what is on the right of the seam would begin with the byte
    cases t with
    | nil =>
      rw [List.append_nil]
      exact .inl hu.isInfix
    | cons x t =>
      rw [List.cons_prefix_cons] at ht
      exact absurd (List.mem_append_right u (ht.1 ▸ List.mem_cons_self)) hc

/-- A byte that begins neither a line nor a comment nor a stage keeps two texts apart. -/
theorem oneStage_append_cons {a b : GoString} {c : UInt8} (hc : c ≠ 0x0A ∧ c ≠ 0x2F ∧ c ≠ bar) :
    OneStage (a ++ c :: b) ↔ OneStage a ∧ OneStage b := by
  refine ⟨fun h => ⟨h.of_infix List.infix_append_left, ?_⟩, fun ⟨ha, hb⟩ => ⟨?_, ?_, ?_⟩⟩
  · exact h.of_infix (List.infix_append_of_infix_right (List.suffix_cons c b).isInfix)
  · rw [List.mem_append, List.mem_cons, not_or, not_or]
    exact ⟨ha.newline, hc.1.symm, hb.newline⟩
  · intro hin
    have hslash : c ∉ str "//" := by simpa [show str "//" = [0x2F, 0x2F] from rfl] using hc.2.1
    exact (infix_append_cons hslash hin).elim ha.comment hb.comment
  · rw [List.mem_append, List.mem_cons, not_or, not_or]
    exact ⟨ha.noBar, hc.2.2.symm, hb.noBar⟩

theorem oneStage_nil : OneStage [] := ⟨List.not_mem_nil, by decide, List.not_mem_nil⟩

/-- **A printed list stays in one stage**, if its fields and values do. -/
theorem oneStage_printFilter {q : UInt8} (hq : isQuote q = true) {kvs : List (GoString × GoString)}
    (h : ∀ kv ∈ kvs, OneStage kv.1 ∧ OneStage kv.2) : OneStage (printFilter q kvs) := by
  have hquote : q ≠ 0x0A ∧ q ≠ 0x2F ∧ q ≠ bar := by
    rcases (isQuote_iff q).mp hq with rfl | rfl <;> decide
  have hquoted : ∀ v t, OneStage v → OneStage t → OneStage (q :: (v ++ q :: t)) := fun v t hv ht =>
    (oneStage_append_cons (a := []) hquote).mpr
      ⟨oneStage_nil, (oneStage_append_cons hquote).mpr ⟨hv, ht⟩⟩
  have hbehind : ∀ kvs : List (GoString × GoString), (∀ kv ∈ kvs, OneStage kv.1 ∧ OneStage kv.2) →
      ∀ v, OneStage v → OneStage (behind q v kvs) := by
    intro kvs
    induction kvs with
    | nil => exact fun _ v hv => hquoted v [] hv oneStage_nil
    | cons kv kvs ih =>
      intro h v hv
      obtain ⟨hkv, hrest⟩ := List.forall_mem_cons.mp h
      have hand : OneStage (str " AND") := ⟨by decide, by decide, by decide⟩
      rw [behind, show str " AND " = str " AND" ++ [0x20] from rfl, List.append_assoc,
        List.singleton_append]
      refine hquoted v _ hv ((oneStage_append_cons (by decide)).mpr ⟨hand, ?_⟩)
      exact (oneStage_append_cons (by decide)).mpr ⟨hkv.1, ih hrest kv.2 hkv.2⟩
  cases kvs with
  | nil => exact oneStage_nil
  | cons kv kvs =>
    obtain ⟨hkv, hrest⟩ := List.forall_mem_cons.mp h
    rw [printFilter_cons]
    exact (oneStage_append_cons (by decide)).mpr ⟨hkv.1, hbehind kvs hrest kv.2 hkv.2⟩

/-! ### The stages of any query -/

theorem infix_trimSpace (s : GoString) : trimSpace s <:+: s :=
  (prefix_trimEnd (dropWords spaces 0 s)).isInfix.trans (dropWords_suffix spaces s 0).isInfix

theorem infix_of_mem_split {s p : GoString} {b : UInt8} (hp : p ∈ split s [b]) : p <:+: s := by
  have hgo : ∀ s : GoString, (splitGo [b] 0 s).1 <+: s ∧ ∀ p ∈ (splitGo [b] 0 s).2, p <:+: s := by
    intro s
    induction s with
    | nil => simp [splitGo]
    | cons c s ih =>
      rw [splitGo]
      split_ifs
      · refine ⟨List.nil_prefix, List.forall_mem_cons.mpr ⟨?_, fun p hp => ?_⟩⟩
        · exact ih.1.isInfix.trans (List.suffix_cons c s).isInfix
        · exact (ih.2 p hp).trans (List.suffix_cons c s).isInfix
      · refine ⟨List.cons_prefix_cons.mpr ⟨rfl, ih.1⟩, fun p hp => ?_⟩
        exact (ih.2 p hp).trans (List.suffix_cons c s).isInfix
  rcases List.mem_cons.mp hp with rfl | hp
  · exact (hgo s).1.isInfix
  · exact (hgo s).2 p hp

/-- No comment begins in lines that have none, when they are joined. -/
theorem not_infix_join {lines : List GoString} (h : ∀ line ∈ lines, ¬str "//" <:+: line) :
    ¬str "//" <:+: join lines (str " ") := by
  induction lines with
  | nil => decide
  | cons line lines ih =>
    obtain ⟨hline, hrest⟩ := List.forall_mem_cons.mp h
    cases lines with
    | nil => simpa [join] using hline
    | cons line' lines =>
      have hjoin : join (line :: line' :: lines) (str " ") =
          line ++ 0x20 :: join (line' :: lines) (str " ") := by
        simp [join, show str " " = [0x20] from rfl]
      rw [hjoin]
      intro hin
      exact (infix_append_cons (by decide) hin).elim hline (ih hrest)

/-- **In no stage of a query does a line, a comment or a stage begin.** -/
theorem oneStage_of_mem_queryStages {q part : GoString} (h : part ∈ queryStages q) :
    OneStage part := by
  obtain ⟨s, hs, rfl⟩ := List.mem_map.mp h
  refine ⟨newline_notMem_stage h, fun hin => ?_, fun hmem => ?_⟩
  · refine not_infix_join (fun line hline => ?_)
      ((hin.trans (infix_trimSpace s)).trans (infix_of_mem_split hs))
    obtain ⟨l, -, rfl⟩ := List.mem_map.mp hline
    exact fun hin => not_infix_stripComment l (hin.trans (infix_trimSpace _))
  · exact notMem_of_mem_split hs (trimSpace_subset s hmem)

theorem infix_of_mem_pieces {expr piece : GoString} (h : piece ∈ pieces expr) : piece <:+: expr := by
  have hfrom : ∀ (os : List ℕ) (start : ℕ), piece ∈ piecesFrom expr start os → piece <:+: expr := by
    intro os
    induction os with
    | nil =>
      intro start h
      rw [piecesFrom, List.mem_singleton] at h
      rw [h]
      exact (List.drop_suffix _ _).isInfix
    | cons o os ih =>
      intro start h
      rw [piecesFrom] at h
      rcases List.mem_cons.mp h with rfl | h
      · exact (List.drop_suffix _ _).isInfix.trans (List.take_prefix _ _).isInfix
      · exact ih _ h
  exact hfrom _ 0 h

/-- A condition is made of what stands in its piece. -/
theorem infix_of_condition {piece : GoString} {kv : GoString × GoString}
    (h : condition piece = some kv) : kv.1 <:+: piece ∧ kv.2 <:+: piece := by
  rw [condition] at h
  cases hidx : index (str "=") (trimSpace piece) with
  | none =>
    rw [hidx] at h
    cases h
  | some idx =>
    simp only [hidx] at h
    split_ifs at h
    obtain rfl := Option.some.inj h
    have hpiece := infix_trimSpace piece
    exact ⟨((infix_trimSpace _).trans (List.take_prefix _ _).isInfix).trans hpiece,
      (((infix_trim _ _).trans (infix_trimSpace _)).trans (List.drop_suffix _ _).isInfix).trans
        hpiece⟩

/-- So neither does one in its conditions. -/
theorem oneStage_of_mem_queryConditions {q : GoString} {kv : GoString × GoString}
    (h : kv ∈ queryConditions q) : OneStage kv.1 ∧ OneStage kv.2 := by
  obtain ⟨part, hpart, hkv⟩ := List.mem_flatMap.mp h
  have hstage := oneStage_of_mem_queryStages (List.mem_of_mem_tail hpart)
  by_cases hfilter : IsFilter part
  · rw [stageConditions_of_filter hfilter] at hkv
    obtain ⟨piece, hpiece, hcond⟩ := List.mem_filterMap.mp hkv
    have hin : piece <:+: part := (infix_of_mem_pieces hpiece).trans
      ((infix_trimSpace _).trans (List.drop_suffix 6 part).isInfix)
    obtain ⟨hfield, hvalue⟩ := infix_of_condition hcond
    exact ⟨hstage.of_infix (hfield.trans hin), hstage.of_infix (hvalue.trans hin)⟩
  · rw [stageConditions_of_not hfilter] at hkv
    cases hkv

/-! ### A query of one filter stage -/

/-- A dataset clause that a query can begin with. -/
structure DatasetClause (clause : GoString) : Prop where
  firm : Firm clause
  noBar : bar ∉ clause
  named : DatasetNamed clause

/-- A dataset clause, and a filter stage behind it. -/
def filterQuery (clause text : GoString) : GoString := clause ++ (str " | filter " ++ text)

theorem firm_filter : Firm (str "filter") :=
  ⟨⟨0x66, rfl, by decide⟩, ⟨0x72, rfl, by decide⟩, by decide +kernel, by decide +kernel⟩

section Stages

variable {clause : GoString} (hclause : DatasetClause clause)

include hclause

theorem firstStage_clause : firstStage clause = clause := by
  have hstrip : stripComments clause = clause := by
    have h := stripComments_append hclause.firm []
    rwa [List.append_nil, openTail_of_line List.not_mem_nil, show stripComment [] = [] from rfl,
      show trimEnd [] = [] from rfl, List.append_nil] at h
  have htrim : trimSpace clause = clause := by
    have h := trimSpace_append hclause.firm []
    rwa [List.append_nil, show trimEnd [] = [] from rfl, List.append_nil] at h
  rw [firstStage, queryStages, hstrip, show str "|" = [bar] from rfl,
    split_of_notMem hclause.noBar, List.map_singleton, htrim]
  rfl

/-- **A text that stays in one stage is the filter stage of its query.** -/
theorem queryStages_filterQuery {text : GoString} (h : OneStage text) :
    queryStages (filterQuery clause text) = [clause, str "filter" ++ trimEnd (0x20 :: text)] := by
  have hfirm : Firm (clause ++ str " | filter") := by
    obtain ⟨b, hb, hvis⟩ := hclause.firm.first
    refine ⟨⟨b, by rw [List.head?_append, Option.mem_def.mp hb]; rfl, hvis⟩,
      ⟨0x72, by rw [List.getLast?_append]; rfl, by decide⟩, ?_, ?_⟩
    · rw [List.mem_append, not_or]
      exact ⟨hclause.firm.newline, by decide +kernel⟩
    · rw [List.mem_append, not_or]
      exact ⟨hclause.firm.slash, by decide +kernel⟩
  have hquery : filterQuery clause text = clause ++ str " | filter" ++ 0x20 :: text := by
    rw [filterQuery, show str " | filter " = str " | filter" ++ [0x20] from rfl]
    simp
  have hopen : openTail (0x20 :: text) = trimEnd (0x20 :: text) := by
    rw [openTail_of_line h.cons_space.newline, stripComment_of_not_infix h.cons_space.comment]
  have hnobar : bar ∉ 0x20 :: (str "filter" ++ trimEnd (0x20 :: text)) := by
    rw [List.mem_cons, List.mem_append, not_or, not_or]
    exact ⟨by decide, by decide +kernel,
      fun hmem => h.cons_space.noBar ((prefix_trimEnd _).subset hmem)⟩
  have hclause' : bar ∉ clause ++ [0x20] := by
    rw [List.mem_append, not_or]
    exact ⟨hclause.noBar, by decide⟩
  have hcut : clause ++ str " | filter" ++ trimEnd (0x20 :: text) =
      (clause ++ [0x20]) ++ bar :: 0x20 :: (str "filter" ++ trimEnd (0x20 :: text)) := by
    rw [show str " | filter" = [0x20, bar, 0x20] ++ str "filter" from rfl]
    simp
  rw [queryStages, hquery, stripComments_append hfirm, hopen, hcut, show str "|" = [bar] from rfl,
    split_append_cons hclause', split_of_notMem hnobar, List.map_cons, List.map_singleton,
    trimSpace_append hclause.firm, trimSpace_space, trimSpace_append firm_filter, trimEnd_idem,
    show trimEnd [0x20] = [] by decide +kernel, List.append_nil]

end Stages

/-! ### Connectives in fields and values -/

/-- Where a text that does not have a byte stands on either side of it. -/
theorem prefix_drop_append_cons {w a b : GoString} {c : UInt8} (hc : c ∉ w) {j : ℕ}
    (h : w <+: (a ++ c :: b).drop j) :
    w <:+: a ∨ ∃ i, j = a.length + 1 + i ∧ w <+: b.drop i := by
  by_cases hj : j ≤ a.length
  · rw [List.drop_append_of_le_length hj, prefix_append_cons_iff hc] at h
    exact .inl (h.isInfix.trans (List.drop_suffix j a).isInfix)
  · obtain ⟨i, rfl⟩ := Nat.exists_eq_add_of_le (show a.length + 1 ≤ j by omega)
    refine .inr ⟨i, rfl, ?_⟩
    rwa [Nat.add_assoc, ← List.drop_drop, List.drop_left, Nat.add_comm 1, List.drop_succ_cons] at h

section Ascii

variable {q : UInt8} (hq : isQuote q = true)

include hq

theorem lower_printQuoted_append (kv : GoString × GoString) (t : GoString) :
    (printQuoted q kv ++ t).map lowerByte =
      kv.1.map lowerByte ++ 0x3D :: q :: (kv.2.map lowerByte ++ q :: t.map lowerByte) := by
  have hlower : lowerByte q = q := by
    rcases (isQuote_iff q).mp hq with rfl | rfl <;> decide
  rw [printQuoted_eq]
  simp [hlower, show lowerByte 0x3D = 0x3D by decide]

/-- A connective is behind a condition that has none in its field and its value. -/
theorem length_printQuoted_le {kv : GoString × GoString}
    (h : ¬andSep <:+: kv.1.map lowerByte ∧ ¬andSep <:+: kv.2.map lowerByte) {t : GoString} {j : ℕ}
    (hj : andSep <+: ((printQuoted q kv ++ t).map lowerByte).drop j) :
    ∃ i, j = (printQuoted q kv).length + i ∧ andSep <+: (t.map lowerByte).drop i := by
  have hquote : q ∉ andSep := by
    rcases (isQuote_iff q).mp hq with rfl | rfl <;> decide
  rw [lower_printQuoted_append hq] at hj
  rcases prefix_drop_append_cons (by decide) hj with hin | ⟨i₁, rfl, hi₁⟩
  · exact absurd hin h.1
  rcases prefix_drop_append_cons (a := []) hquote hi₁ with hin | ⟨i₂, rfl, hi₂⟩
  · exact absurd (List.infix_nil.mp hin) andSep_ne_nil
  rcases prefix_drop_append_cons hquote hi₂ with hin | ⟨i₃, rfl, hi₃⟩
  · exact absurd hin h.2
  refine ⟨i₃, ?_, hi₃⟩
  rw [length_printQuoted, List.length_map, List.length_map, List.length_nil]
  omega

theorem cutsFrom_printFilter : ∀ {kvs : List (GoString × GoString)},
    (∀ kv ∈ kvs, ¬andSep <:+: kv.1.map lowerByte ∧ ¬andSep <:+: kv.2.map lowerByte) → ∀ k,
    cutsFrom andSep 0 k ((printFilter q kvs).map lowerByte) = (joints k kvs).map Prod.fst
  | [], _, _ => rfl
  | [kv], h, k => by
    have hone : printFilter q [kv] = printQuoted q kv ++ [] := by simp [printFilter, join]
    rw [hone]
    refine cutsFrom_eq_nil (fun j hj => ?_) k
    obtain ⟨i, -, hi⟩ := length_printQuoted_le hq (h kv List.mem_cons_self) hj
    rw [List.map_nil, List.drop_nil] at hi
    exact andSep_ne_nil (List.prefix_nil.mp hi)
  | kv :: kv' :: kvs, h, k => by
    obtain ⟨hkv, hrest⟩ := List.forall_mem_cons.mp h
    have hand : (str " AND ").map lowerByte = andSep := by decide
    have hfirst : andSep <+: ((printFilter q (kv :: kv' :: kvs)).map lowerByte).drop
        (printQuoted q kv).length := by
      rw [printFilter_cons_cons, List.map_append, List.drop_left' (List.length_map _),
        List.map_append, hand]
      exact List.prefix_append _ _
    have hmin : ∀ j < (printQuoted q kv).length,
        ¬andSep <+: ((printFilter q (kv :: kv' :: kvs)).map lowerByte).drop j := by
      intro j hj hpre
      rw [printFilter_cons_cons] at hpre
      obtain ⟨i, rfl, -⟩ := length_printQuoted_le hq hkv hpre
      omega
    have hlater : ((printFilter q (kv :: kv' :: kvs)).map lowerByte).drop
        ((printQuoted q kv).length + andSep.length) = (printFilter q (kv' :: kvs)).map lowerByte := by
      rw [printFilter_cons_cons, List.map_append, List.map_append, ← List.drop_drop,
        List.drop_left' (List.length_map _), hand, List.drop_left]
    have hjoint : k + (printQuoted q kv).length = k + kv.1.length + kv.2.length + 3 := by
      rw [length_printQuoted]
      omega
    rw [cutsFrom_of_first andSep_ne_nil hfirst hmin, hlater, cutsFrom_printFilter hrest, joints,
      List.map_cons, ← Nat.add_assoc, hjoint, andSep_length]

/-- **In ASCII a text is cut where its conditions are joined** exactly when no connective is in a
field or a value, in any letter case. -/
theorem cutAtJoints_iff_of_ascii {kvs : List (GoString × GoString)}
    (htrim : ∀ kv ∈ kvs, trimSpace kv.1 = kv.1) (hascii : ∀ b ∈ printFilter q kvs, b.toNat < 0x80) :
    CutAtJoints q kvs ↔
      ∀ kv ∈ kvs, ¬andSep <:+: kv.1.map lowerByte ∧ ¬andSep <:+: kv.2.map lowerByte := by
  constructor
  · intro h
    -- split without a loss, the text has no connective in a piece
    obtain ⟨parts, hsplit, -, hnone⟩ := (splitAnd_lossless_iff _).mpr (aligned_of_ascii hascii)
    rw [splitAnd_eq, if_pos h.inside] at hsplit
    obtain rfl := Option.some.inj hsplit
    intro kv hkv
    obtain ⟨kv₀, kvs, rfl⟩ := List.exists_cons_of_ne_nil (List.ne_nil_of_mem hkv)
    have hpieces := @pieces_of_joints q hq (printFilter q (kv₀ :: kvs)) kvs kv₀ _ 0 [] htrim
      (.inl rfl) rfl h
    obtain ⟨t, ht, hpiece⟩ := exists_mem_of_forall₂ hpieces.flip kv hkv
    obtain ⟨p, hp, rfl⟩ := List.mem_map.mp ht
    have hfree : ∀ s, s <:+: trimSpace p → ¬andSep <:+: s.map lowerByte := fun s hs hin =>
      hnone p hp (hin.trans ((hs.trans (infix_trimSpace p)).map lowerByte))
    rcases hpiece with heq | ⟨heq, -⟩
    · rw [heq, printQuoted_eq] at hfree
      exact ⟨hfree _ ⟨[], _, rfl⟩, hfree _ ⟨kv.1 ++ [0x3D, q], [q], by simp⟩⟩
    · rw [heq] at hfree
      exact ⟨hfree _ ⟨[], _, rfl⟩, hfree _ ⟨kv.1 ++ [0x3D, q], [], by simp⟩⟩
  · intro h
    rw [CutAtJoints, toLower_of_ascii hascii, cuts, cutsFrom_printFilter hq h, List.forall₂_map_left_iff]
    exact List.forall₂_same.mpr fun j _ => .inl rfl

end Ascii

/-! ### Both parsers -/

/-- What the parser of queries makes of a piece of a condition. -/
theorem condition_piece {q : UInt8} (hq : isQuote q = true) {kv : GoString × GoString}
    (hkv : trimSpace kv.1 = kv.1) (hv : ∀ b ∈ kv.2, isQuote b = false) (h : Equation q kv)
    {p : GoString} (hp : PieceOf q (trimSpace p) kv) : condition p = some kv := by
  obtain ⟨u, ht, hvalue⟩ := hp.value hq hv
  have hpos : 0 < kv.1.length := List.length_pos_iff.mpr h.named
  have hdrop : (kv.1 ++ 0x3D :: u).drop (kv.1.length + 1) = u := by
    rw [← List.drop_drop, List.drop_left]
    rfl
  rw [condition, ht, index_equals_append h.single]
  simp only [if_pos hpos, List.take_left, hdrop, hkv, hvalue]

/-- A list that both parsers read as it is written: the one returns its conditions, the other keeps
them in its map. -/
structure Verbatim (lib : StdLib) (q : UInt8) (clause : GoString)
    (kvs : List (GoString × GoString)) : Prop where
  filterExpr : parseFilterExpr lib (printFilter q kvs) = some (kvs.map equation)
  xql : ∃ p, parseXQL (filterQuery clause (printFilter q kvs)) = some p ∧ p.filters.toList.Perm kvs

/-- A list that can be read as it is written. -/
structure Readable (q : UInt8) (kvs : List (GoString × GoString)) : Prop where
  /-- No field is empty, has blanks around it, or has a `=` in it, and no other operator stands
  behind a field. -/
  equations : ∀ kv ∈ kvs, trimSpace kv.1 = kv.1 ∧ Equation q kv
  /-- The connectives are where the conditions are joined. -/
  cuts : CutAtJoints q kvs
  /-- No line, no comment and no stage begins in a field or a value. -/
  oneStage : ∀ kv ∈ kvs, OneStage kv.1 ∧ OneStage kv.2
  /-- No field is named twice. -/
  distinct : (kvs.map Prod.fst).Nodup

/-- The expression of the filter stage. -/
theorem filterText_printFilter {q : UInt8} (hq : isQuote q = true) {kvs : List (GoString × GoString)}
    (h : ∀ kv ∈ kvs, trimSpace kv.1 = kv.1) :
    filterText (str "filter" ++ trimEnd (0x20 :: printFilter q kvs)) = printFilter q kvs := by
  cases kvs with
  | nil =>
    change filterText (str "filter" ++ trimEnd [0x20]) = []
    decide +kernel
  | cons kv kvs =>
    have hend : trimEnd (0x20 :: printFilter q (kv :: kvs)) = 0x20 :: printFilter q (kv :: kvs) := by
      rw [printFilter_cons, ← List.cons_append, trimEnd_append (b := 0x3D) (by decide),
        trimEnd_behind hq]
    rw [filterText, hend, show 6 = (str "filter").length from rfl, List.drop_left, trimSpace_space,
      trimSpace_printFilter hq, dropWords_of_trimmed (h kv List.mem_cons_self), printFilter_cons]

/-- **The conditions of the query of a readable list.** -/
theorem Readable.queryConditions {q : UInt8} (hq : isQuote q = true) {clause : GoString}
    (hclause : DatasetClause clause) {kvs : List (GoString × GoString)}
    (hvalues : ∀ kv ∈ kvs, ∀ b ∈ kv.2, isQuote b = false) (h : Readable q kvs) :
    FiltersInside (filterQuery clause (printFilter q kvs)) ∧
      Query.queryConditions (filterQuery clause (printFilter q kvs)) = kvs := by
  have hstages := queryStages_filterQuery hclause (oneStage_printFilter hq h.oneStage)
  have hlater : laterStages (filterQuery clause (printFilter q kvs)) =
      [str "filter" ++ trimEnd (0x20 :: printFilter q kvs)] := by
    rw [laterStages, hstages]
    rfl
  have htext := filterText_printFilter hq fun kv hkv => (h.equations kv hkv).1
  have hconditions : (pieces (printFilter q kvs)).filterMap condition = kvs := by
    cases kvs with
    | nil =>
      change (pieces []).filterMap condition = []
      decide +kernel
    | cons kv kvs =>
      have hpieces := @pieces_of_joints q hq (printFilter q (kv :: kvs)) kvs kv _ 0 []
        (fun kv' hkv' => (h.equations kv' hkv').1) (.inl rfl) rfl h.cuts
      have hread := filterMap_of_forall₂ (g := condition) (m := id)
        (List.forall₂_map_left_iff.mp hpieces) fun kv' hkv' p hp =>
          condition_piece hq (h.equations kv' hkv').1 (hvalues kv' hkv') (h.equations kv' hkv').2 hp
      rwa [List.map_id] at hread
  constructor
  · rw [FiltersInside, hlater, List.forall_mem_singleton, htext]
    exact fun _ => h.cuts.inside
  · rw [Query.queryConditions, hlater, List.flatMap_singleton,
      stageConditions_of_filter (isFilter_append _), htext, hconditions]

/-- What the parser of queries keeps in its map are conditions of the text. -/
theorem filters_of_parseXQL {text : GoString} {p : Parsed (GoMap GoString)}
    (h : parseXQL text = some p) : p.filters = GoMap.insertAll ∅ (queryConditions text) := by
  by_cases hnamed : DatasetNamed text
  · rw [parseXQL_eq hnamed] at h
    obtain ⟨p', hp', rfl⟩ := Option.map_eq_some_iff.mp h
    rw [← parseXQLForNgx_filters hp']
    rfl
  · rw [parseXQL_eq_none hnamed] at h
    cases h

/-- **The lists that both parsers read verbatim.** -/
theorem verbatim_iff (lib : StdLib) {q : UInt8} (hq : isQuote q = true) {clause : GoString}
    (hclause : DatasetClause clause) {kvs : List (GoString × GoString)}
    (hvalues : ∀ kv ∈ kvs, ∀ b ∈ kv.2, isQuote b = false) :
    Verbatim lib q clause kvs ↔ Readable q kvs := by
  have hfilter := parseFilterExpr_printFilter_iff lib hq hvalues
  constructor
  · rintro ⟨hexpr, p, hp, hperm⟩
    obtain ⟨hequations, hcuts⟩ := hfilter.mp hexpr
    have hkept := filters_of_parseXQL hp
    refine ⟨hequations, hcuts, fun kv hkv => ?_, ?_⟩
    · -- what is in the map was a condition of the text
      have hmem := Std.ExtTreeMap.mem_toList_iff_getElem?_eq_some.mp (hperm.mem_iff.mpr hkv)
      rw [hkept] at hmem
      rcases GoMap.getElem?_insertAll_cases (queryConditions
        (filterQuery clause (printFilter q kvs))) kv.1 ∅ with ⟨v, hv, hget⟩ | ⟨-, hget⟩
      · obtain rfl := Option.some.inj (hget.symm.trans hmem)
        exact oneStage_of_mem_queryConditions hv
      · rw [hget] at hmem
        cases hmem
    · rw [← (hperm.map Prod.fst).nodup_iff]
      exact MapRange.byKey.nodup_keys _
  · intro h
    -- the first stage is that of the clause, so the query has a dataset
    obtain ⟨hinside, hconditions⟩ := h.queryConditions hq hclause hvalues
    have hnamed : DatasetNamed (filterQuery clause (printFilter q kvs)) := by
      have hfirst : firstStage (filterQuery clause (printFilter q kvs)) = firstStage clause := by
        rw [firstStage_clause hclause, firstStage,
          queryStages_filterQuery hclause (oneStage_printFilter hq h.oneStage)]
        rfl
      rw [DatasetNamed, hfirst]
      exact hclause.named
    obtain ⟨p', hp'⟩ := (parseXQLForNgx_returns_iff _).mpr ⟨hnamed.inside, hinside⟩
    have hxql : parseXQL (filterQuery clause (printFilter q kvs)) =
        some (p'.mapFilters (GoMap.insertAll ∅)) := by
      rw [parseXQL_eq hnamed, hp']
      rfl
    refine ⟨hfilter.mpr ⟨h.equations, h.cuts⟩, _, hxql, ?_⟩
    rw [filters_of_parseXQL hxql, hconditions]
    exact (insertAll_perm_iff kvs).mpr h.distinct

/-- A dataset. -/
def dataClause : GoString := str "dataset = xdr_data"

theorem datasetClause_dataClause : DatasetClause dataClause where
  firm := ⟨⟨0x64, rfl, by decide⟩, ⟨0x61, rfl, by decide⟩, by decide +kernel, by decide +kernel⟩
  noBar := by decide +kernel
  named := by
    intro idx hidx
    obtain rfl : 0 = idx := Option.some.inj ((by decide +kernel : index (str "dataset")
      (toLower (firstStage dataClause)) = some 0).symm.trans hidx)
    decide +kernel

/-- A value with a `=`, and one that is empty. -/
theorem verbatim_two :
    Verbatim literalLib 0x22 dataClause [(str "cmd", str "a=b /c"), (str "user", [])] := by
  have hcuts : cuts andSep (toLower (printFilter 0x22 [(str "cmd", str "a=b /c"), (str "user", [])])) =
      [12] := by decide +kernel
  refine (verbatim_iff literalLib (by decide) datasetClause_dataClause (by decide +kernel)).mpr
    ⟨?_, ?_, ?_, by decide +kernel⟩
  · refine List.forall_mem_cons.mpr ⟨⟨by decide +kernel, by decide, by decide, by decide +kernel⟩,
      List.forall_mem_singleton.mpr ⟨by decide +kernel, by decide, by decide, by decide +kernel⟩⟩
  · rw [CutAtJoints, hcuts]
    exact .cons (.inl rfl) .nil
  · refine List.forall_mem_cons.mpr ⟨⟨⟨by decide, by decide, by decide⟩, by decide, by decide, by decide⟩,
      List.forall_mem_singleton.mpr ⟨⟨by decide, by decide, by decide⟩, oneStage_nil⟩⟩

/-- A connective in a value cuts it in both parsers; a comment and a bar in it cut the query. -/
theorem not_verbatim :
    ¬Verbatim literalLib 0x22 dataClause [(str "title", str "this and that")] ∧
      ¬Verbatim literalLib 0x22 dataClause [(str "url", str "http://h/")] ∧
        ¬Verbatim literalLib 0x22 dataClause [(str "cmd", str "ls | wc")] := by
  have hxql : ∀ kv kv' : GoString × GoString, kv ≠ kv' →
      (parseXQL (filterQuery dataClause (printFilter 0x22 [kv]))).map (·.filters.toList) =
        some [kv'] → ¬Verbatim literalLib 0x22 dataClause [kv] := by
    rintro kv kv' hne hread ⟨-, p, hp, hperm⟩
    rw [hp] at hread
    have hkept : p.filters.toList = [kv'] := Option.some.inj hread
    rw [hkept, List.perm_singleton, List.cons.injEq] at hperm
    exact hne hperm.1.symm
  refine ⟨?_, hxql _ (str "url", str "http:") (by decide +kernel) (by decide +kernel),
    hxql _ (str "cmd", str "ls") (by decide +kernel) (by decide +kernel)⟩
  rintro ⟨hexpr, -⟩
  have hread : (parseFilterExpr literalLib (printFilter 0x22 [(str "title", str "this and that")])).map
      (List.map FilterCondition.value) = some [str "this"] := by decide +kernel
  rw [hexpr] at hread
  exact absurd hread (by decide +kernel)

end Query

end Xsiam
