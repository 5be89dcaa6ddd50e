import Xsiam.Query.Translate

/-!
# Queries that open with a fixed text

A query that the program writes opens with a text of its own, the dataset and the name of a stage,
and goes on with whatever a user has put into a rule. However the rest reads, the opening reads as
it was written (`Xsiam.Query.laterStages_open`): stripping comments, splitting at bars and trimming
leave a text alone that begins and ends with a visible byte and has neither a line break nor a slash
nor a bar (`Xsiam.Query.Firm`).

What a condition says comes out of the rest, and there is never more of a byte in what comes out
than there was (`Xsiam.Query.count_condition`).
-/

namespace Xsiam

namespace Query

open Go Etl Separator

/-! ### Trimming behind a visible byte -/

/-- A byte that is a character of its own, and no space. -/
def Visible (b : UInt8) : Prop := 0x21 ≤ b.toNat ∧ b.toNat < 0x7F

instance (b : UInt8) : Decidable (Visible b) := inferInstanceAs (Decidable (_ ∧ _))

/-- `trimSpace`, at the end only. -/
def trimEnd (s : GoString) : GoString := (dropWords (spaces.map List.reverse) 0 s.reverse).reverse

theorem prefix_trimEnd (s : GoString) : trimEnd s <+: s := by
  rw [← List.reverse_suffix, trimEnd, List.reverse_reverse]
  exact dropWords_suffix _ _ 0

/-- A word that does not have a byte stands at the front of a text before that byte or nowhere. -/
theorem prefix_append_cons_iff {w s t : GoString} {b : UInt8} (hb : b ∉ w) :
    w <+: s ++ b :: t ↔ w <+: s := by
  refine ⟨fun h => ?_, fun h => h.trans (List.prefix_append _ _)⟩
  rcases List.prefix_or_prefix_of_prefix h (List.prefix_append s (b :: t)) with hw | ⟨u, rfl⟩
  · exact hw
  · rw [List.prefix_append_right_inj] at h
    rcases u with _ | ⟨c, u⟩
    · rw [List.append_nil]
    · rw [List.cons_prefix_cons] at h
      exact absurd (by simp [h.1]) hb

/-- What words are dropped from the front of a text does not depend on what stands from a byte on
that no word has. -/
theorem dropWords_append {ws : List GoString} {b : UInt8} (hws : ∀ w ∈ ws, w ≠ [] ∧ b ∉ w)
    (t : GoString) (s : GoString) :
    ∀ k ≤ s.length, dropWords ws k (s ++ b :: t) = dropWords ws k s ++ b :: t := by
  have hfind : ∀ s : GoString, ws.find? (·.isPrefixOf (s ++ b :: t)) =
      ws.find? (·.isPrefixOf s) := by
    intro s
    refine List.find?_congr fun w hw => ?_
    rw [Bool.eq_iff_iff, List.isPrefixOf_iff_prefix, List.isPrefixOf_iff_prefix,
      prefix_append_cons_iff (hws w hw).2]
  induction s with
  | nil =>
    intro k hk
    obtain rfl : k = 0 := by simpa using hk
    have hnone : ws.find? (·.isPrefixOf (b :: t)) = none := by
      rw [← List.nil_append (b :: t), hfind, List.find?_eq_none]
      intro w hw
      simpa using (hws w hw).1
    simp only [dropWords, List.nil_append, hnone]
  | cons c s ih =>
    intro k hk
    rcases k with _ | k
    · rw [List.cons_append, dropWords, dropWords, ← List.cons_append, hfind]
      cases hw : ws.find? (·.isPrefixOf (c :: s)) with
      | none => rfl
      | some w =>
        have hprefix : w.isPrefixOf (c :: s) = true :=
          List.find?_some (p := fun x : GoString => x.isPrefixOf (c :: s)) hw
        have hle := (List.isPrefixOf_iff_prefix.mp hprefix).length_le
        rw [List.length_cons] at hle
        exact ih (w.length - 1) (by omega)
    · rw [List.cons_append, dropWords, dropWords]
      exact ih k (by simpa using hk)

/-- What is left has no word at its front. -/
theorem dropWords_idem (ws : List GoString) (s : GoString) :
    ∀ k, dropWords ws 0 (dropWords ws k s) = dropWords ws k s := by
  induction s with
  | nil => intro k; rcases k with _ | k <;> rfl
  | cons b s ih =>
    intro k
    rcases k with _ | k
    · cases hw : ws.find? (·.isPrefixOf (b :: s)) with
      | none => simp only [dropWords, hw]
      | some w =>
        simp only [dropWords, hw]
        exact ih _
    · rw [dropWords]
      exact ih k

theorem trimEnd_idem (s : GoString) : trimEnd (trimEnd s) = trimEnd s := by
  rw [trimEnd, trimEnd, List.reverse_reverse, dropWords_idem]

/-- No space has a visible byte. -/
theorem spaces_visible {b : UInt8} (hb : Visible b) : ∀ w ∈ spaces, w ≠ [] ∧ b ∉ w := by
  have hall : ∀ w ∈ spaces, w ≠ [] ∧ ∀ x ∈ w, ¬Visible x := by decide +kernel
  exact fun w hw => ⟨(hall w hw).1, fun hmem => (hall w hw).2 b hmem hb⟩

theorem trimEnd_append {b : UInt8} (hb : Visible b) (s t : GoString) :
    trimEnd (s ++ b :: t) = s ++ b :: trimEnd t := by
  have hws : ∀ w ∈ spaces.map List.reverse, w ≠ [] ∧ b ∉ w := by
    intro w hw
    obtain ⟨w', hw', rfl⟩ := List.mem_map.mp hw
    have h := spaces_visible hb w' hw'
    exact ⟨by simpa using h.1, by simpa using h.2⟩
  have hrev : (s ++ b :: t).reverse = t.reverse ++ b :: s.reverse := by simp
  rw [trimEnd, hrev, dropWords_append hws _ _ 0 (Nat.zero_le _)]
  simp [trimEnd]

/-- A text that stands at the beginning of a line and keeps what is behind it apart: it begins and
ends with a visible byte, and no line and no comment begins in it. -/
structure Firm (h : GoString) : Prop where
  first : ∃ b ∈ h.head?, Visible b
  last : ∃ b ∈ h.getLast?, Visible b
  newline : 0x0A ∉ h
  slash : 0x2F ∉ h

/-- **A firm opening keeps the trimming behind it.** -/
theorem trimSpace_append {h : GoString} (hfirm : Firm h) (t : GoString) :
    trimSpace (h ++ t) = h ++ trimEnd t := by
  obtain ⟨b, hb, hvis⟩ := hfirm.first
  obtain ⟨c, hc, hvis'⟩ := hfirm.last
  obtain ⟨h', rfl⟩ := List.head?_eq_some_iff.mp hb
  have hfront : dropWords spaces 0 (b :: h' ++ t) = b :: h' ++ t :=
    dropWords_append (spaces_visible hvis) (h' ++ t) [] 0 le_rfl
  obtain ⟨s, hs⟩ := List.getLast?_eq_some_iff.mp hc
  change trimEnd (dropWords spaces 0 (b :: h' ++ t)) = _
  rw [hfront, hs, List.append_assoc, List.singleton_append, trimEnd_append hvis']
  simp

theorem trimSpace_space (s : GoString) : trimSpace (0x20 :: s) = trimSpace s := by
  have hdrop : dropWords spaces 0 (0x20 :: s) = dropWords spaces 0 s := by
    have hfind : spaces.find? (·.isPrefixOf (0x20 :: s)) = some [0x20] := by
      simp [spaces]
    simp only [dropWords, hfind]
    rfl
  rw [trimSpace, trimSpace, hdrop]

/-! ### Splitting and stripping behind a text -/

/-- The segments have no more of another byte than the text had. -/
theorem sum_count_split (x b : UInt8) (s : GoString) :
    ((split s [b]).map (List.count x)).sum ≤ s.count x := by
  induction s with
  | nil => simp [split, splitGo]
  | cons c s ih =>
    rw [split, List.map_cons, List.sum_cons] at ih
    rw [split, splitGo]
    split_ifs with hc
    · simp only [List.map_cons, List.sum_cons, List.count_nil, List.count_cons]
      simp only [List.length_singleton, Nat.sub_self]
      omega
    · simp only [List.map_cons, List.sum_cons, List.count_cons]
      omega

theorem count_join_space {x : UInt8} (hx : x ≠ 0x20) (parts : List GoString) :
    (join parts (str " ")).count x = (parts.map (List.count x)).sum := by
  have hspace : (str " ").count x = 0 := by
    rw [List.count_eq_zero, show str " " = [0x20] from rfl, List.mem_singleton]
    exact hx
  induction parts with
  | nil => rfl
  | cons p parts ih =>
    rcases parts with _ | ⟨p', parts⟩
    · simp
    · rw [join_cons_cons, List.count_append, List.count_append, hspace, Nat.zero_add, List.map_cons,
        List.sum_cons, ← ih]

theorem index_slash_append {h : GoString} (hh : 0x2F ∉ h) (t : GoString) :
    index (str "//") (h ++ t) = (index (str "//") t).map (h.length + ·) := by
  rw [show str "//" = [0x2F, 0x2F] from rfl]
  exact index_append hh t

theorem stripComment_append {h : GoString} (hh : 0x2F ∉ h) (t : GoString) :
    stripComment (h ++ t) = h ++ stripComment t := by
  rw [stripComment, stripComment, index_slash_append hh]
  cases index (str "//") t with
  | none => rfl
  | some i => exact List.take_length_add_append i

theorem prefix_stripComment (s : GoString) : stripComment s <+: s := by
  rw [stripComment]
  split
  · exact List.take_prefix _ _
  · exact List.prefix_rfl

/-- No comment begins in what is left of a line. -/
theorem not_infix_stripComment (s : GoString) : ¬str "//" <:+: stripComment s := by
  rintro ⟨a, b, hab⟩
  rw [List.append_assoc] at hab
  have hat : ∀ u, stripComment s ++ u = s → str "//" <+: s.drop a.length := by
    intro u hu
    have hs : s = a ++ (str "//" ++ (b ++ u)) := hu.symm.trans (by rw [← hab]; simp)
    rw [hs, List.drop_left]
    exact List.prefix_append _ _
  rw [stripComment] at hab hat
  cases hidx : index (str "//") s with
  | none =>
    simp only [hidx] at hat
    exact index_eq_none hidx a.length (hat [] (List.append_nil s))
  | some idx =>
    simp only [hidx] at hab hat
    refine (index_eq_some hidx).2.2 a.length ?_ (hat (s.drop idx) (List.take_append_drop idx s))
    -- it would stand before the first one
    have hlen := congrArg List.length hab
    have hslash : (str "//").length = 2 := rfl
    rw [List.length_append, List.length_append, hslash, List.length_take] at hlen
    omega

theorem stripComment_of_not_infix {s : GoString} (h : ¬str "//" <:+: s) : stripComment s = s := by
  rw [stripComment]
  cases hidx : index (str "//") s with
  | none => rfl
  | some idx =>
    obtain ⟨-, hat, -⟩ := index_eq_some hidx
    exact absurd (hat.isInfix.trans (List.drop_suffix idx s).isInfix) h

/-- No stage has a line break. -/
theorem newline_notMem_stage {q part : GoString} (h : part ∈ queryStages q) : 0x0A ∉ part := by
  obtain ⟨s, hs, rfl⟩ := List.mem_map.mp h
  intro hmem
  rcases mem_join (mem_of_mem_split hs (trimSpace_subset s hmem)) with hsep | ⟨line, hline, hin⟩
  · exact absurd hsep (by decide)
  · obtain ⟨l, hl, rfl⟩ := List.mem_map.mp hline
    exact notMem_of_mem_split hl ((prefix_stripComment l).subset (trimSpace_subset _ hin))

/-! ### The stages behind an opening -/

/-- What is left of a text behind an opening when the comments are stripped. -/
def openTail (t : GoString) : GoString :=
  join (trimEnd (stripComment (splitGo (str "\n") 0 t).1) ::
    (splitGo (str "\n") 0 t).2.map fun line => trimSpace (stripComment line)) (str " ")

theorem stripComments_append {h : GoString} (hfirm : Firm h) (t : GoString) :
    stripComments (h ++ t) = h ++ openTail t := by
  have hsplit : split (h ++ t) (str "\n") =
      (h ++ (splitGo (str "\n") 0 t).1) :: (splitGo (str "\n") 0 t).2 :=
    split_append hfirm.newline t
  rw [stripComments, hsplit, List.map_cons, stripComment_append hfirm.slash,
    trimSpace_append hfirm, join_append]
  rfl

/-- What the queries of rules start with. -/
def endpointOpening : GoString := str "dataset = xsiam_endpoint | "

theorem firm_endpointOpening {f : GoString} (hf : Firm f) : Firm (endpointOpening ++ f) where
  first := by
    rw [endpointOpening, show str "dataset = xsiam_endpoint | " =
      0x64 :: str "ataset = xsiam_endpoint | " from rfl]
    exact ⟨0x64, rfl, by decide⟩
  last := by
    obtain ⟨b, hb, hvis⟩ := hf.last
    exact ⟨b, by rw [List.getLast?_append, hb]; rfl, hvis⟩
  newline := by
    rw [List.mem_append, not_or]
    exact ⟨by decide +kernel, hf.newline⟩
  slash := by
    rw [List.mem_append, not_or]
    exact ⟨by decide +kernel, hf.slash⟩

/-- **The opening of a query reads as it was written**, and the stage that it starts goes on up to
the first bar behind it. -/
theorem queryStages_open {f : GoString} (hf : Firm f) (hbar : bar ∉ f) (t : GoString) :
    queryStages (endpointOpening ++ (f ++ t)) = str "dataset = xsiam_endpoint" ::
      (f ++ trimEnd (splitGo [bar] 0 (openTail t)).1) ::
        (splitGo [bar] 0 (openTail t)).2.map trimSpace := by
  have hclause : str "dataset = xsiam_endpoint" ++ [0x20] ++ bar :: 0x20 :: (f ++ openTail t) =
      endpointOpening ++ f ++ openTail t := by
    rw [endpointOpening, show str "dataset = xsiam_endpoint | " =
      str "dataset = xsiam_endpoint" ++ [0x20, bar, 0x20] from rfl]
    simp
  have hspace : bar ∉ 0x20 :: f := List.not_mem_cons_of_ne_of_not_mem (by decide) hbar
  rw [queryStages, ← List.append_assoc, stripComments_append (firm_endpointOpening hf), ← hclause,
    show str "|" = [bar] from rfl, split_append_cons (by decide +kernel), ← List.cons_append,
    split_append hspace, List.map_cons, List.map_cons, List.cons_append, trimSpace_space,
    trimSpace_append hf]
  congr 1

theorem firstStage_open {f : GoString} (hf : Firm f) (hbar : bar ∉ f) (t : GoString) :
    firstStage (endpointOpening ++ (f ++ t)) = str "dataset = xsiam_endpoint" := by
  rw [firstStage, queryStages_open hf hbar]
  rfl

theorem laterStages_open {f : GoString} (hf : Firm f) (hbar : bar ∉ f) (t : GoString) :
    laterStages (endpointOpening ++ (f ++ t)) =
      (f ++ trimEnd (splitGo [bar] 0 (openTail t)).1) ::
        (splitGo [bar] 0 (openTail t)).2.map trimSpace := by
  rw [laterStages, queryStages_open hf hbar]
  rfl

/-! ### Texts that stay in one stage -/

/-- A text stays in one stage: no line, no comment and no stage begins in it. -/
structure OneStage (s : GoString) : Prop where
  newline : 0x0A ∉ s
  comment : ¬str "//" <:+: s
  noBar : bar ∉ s

/-- A quote behind it, or a space in front of it, changes nothing. -/
theorem OneStage.append_quote {s : GoString} (h : OneStage s) : OneStage (s ++ [0x22]) := by
  refine ⟨by simpa using h.newline, fun hin => ?_, by simpa [bar] using h.noBar⟩
  rcases List.infix_concat_iff.mp hin with hend | hin
  · rcases List.suffix_concat_iff.mp hend with hnil | ⟨t, ht, -⟩
    · exact absurd hnil (by decide)
    · have hlast := congrArg List.getLast? ht
      rw [List.getLast?_append] at hlast
      change (str "//").getLast? = some 0x22 at hlast
      exact absurd hlast (by decide)
  · exact h.comment hin

theorem OneStage.cons_space {s : GoString} (h : OneStage s) : OneStage (0x20 :: s) := by
  refine ⟨by simpa using h.newline, fun hin => ?_, by simpa [bar] using h.noBar⟩
  rcases List.infix_cons_iff.mp hin with hstart | hin
  · rw [show str "//" = 0x2F :: [0x2F] from rfl, List.cons_prefix_cons] at hstart
    exact absurd hstart.1 (by decide)
  · exact h.comment hin

/-- On one line nothing is joined. -/
theorem openTail_of_line {t : GoString} (h : 0x0A ∉ t) :
    openTail t = trimEnd (stripComment t) := by
  have hlines := split_of_notMem h
  rw [split, List.cons.injEq] at hlines
  rw [openTail, show str "\n" = [0x0A] from rfl, hlines.1, hlines.2]
  simp [join]

/-- **A text that stays in one stage** makes one behind an opening. -/
theorem OneStage.laterStages {f t : GoString} (ht : OneStage t) (hf : Firm f) (hbar : bar ∉ f) :
    laterStages (endpointOpening ++ (f ++ t)) = [f ++ trimEnd t] := by
  have hopen : openTail t = trimEnd t := by
    rw [openTail_of_line ht.newline, stripComment_of_not_infix ht.comment]
  have hnobar : bar ∉ trimEnd t := fun hmem => ht.noBar ((prefix_trimEnd t).subset hmem)
  have hstages := split_of_notMem hnobar
  rw [split, List.cons.injEq] at hstages
  rw [laterStages_open hf hbar, hopen, hstages.1, hstages.2, trimEnd_idem]
  rfl

/-! ### How much of a byte comes out -/

theorem trimSpace_sublist (s : GoString) : (trimSpace s).Sublist s := by
  have hfront := (dropWords_suffix spaces s 0).sublist
  exact (prefix_trimEnd (dropWords spaces 0 s)).sublist.trans hfront

theorem infix_trim (s cutset : GoString) : trim s cutset <:+: s := by
  have hend : trim s cutset <+: s.dropWhile (cutset.contains ·) := by
    rw [← List.reverse_suffix, trim, List.reverse_reverse]
    exact List.dropWhile_suffix _
  exact hend.isInfix.trans (List.dropWhile_suffix _).isInfix

section Count

variable {x : UInt8}

theorem count_openTail_le (hx : x ≠ 0x20) (t : GoString) : (openTail t).count x ≤ t.count x := by
  have hline : ∀ line : GoString,
      (trimSpace (stripComment line)).count x ≤ line.count x := fun line =>
    ((trimSpace_sublist _).trans (prefix_stripComment line).sublist).count_le x
  have hfirst : ∀ line : GoString,
      (trimEnd (stripComment line)).count x ≤ line.count x := fun line =>
    ((prefix_trimEnd _).sublist.trans (prefix_stripComment line).sublist).count_le x
  refine le_trans ?_ (sum_count_split x 0x0A t)
  rw [openTail, count_join_space hx, List.map_cons, List.sum_cons, split, List.map_cons,
    List.sum_cons, List.map_map]
  exact Nat.add_le_add (hfirst _) (List.sum_le_sum fun line _ => hline line)

/-- A stage behind an opening without a byte has no more of it than the text behind the opening. -/
theorem count_laterStages_le {f : GoString} (hf : Firm f) (hbar : bar ∉ f) (hx : x ≠ 0x20)
    (hopen : x ∉ f) {t part : GoString} (h : part ∈ laterStages (endpointOpening ++ (f ++ t))) :
    part.count x ≤ t.count x := by
  rw [laterStages_open hf hbar] at h
  refine le_trans ?_ (count_openTail_le hx t)
  have hsegment : ∀ s ∈ split (openTail t) [bar], s.count x ≤ (openTail t).count x := by
    intro s hs
    exact (List.single_le_sum (by simp) _ (List.mem_map_of_mem hs)).trans
      (sum_count_split x bar (openTail t))
  rcases List.mem_cons.mp h with rfl | h
  · rw [List.count_append, List.count_eq_zero.mpr hopen, Nat.zero_add]
    exact ((prefix_trimEnd _).sublist.count_le x).trans (hsegment _ List.mem_cons_self)
  · obtain ⟨s, hs, rfl⟩ := List.mem_map.mp h
    exact ((trimSpace_sublist s).count_le x).trans (hsegment s (List.mem_cons_of_mem _ hs))

/-- A field has no `=` in it, and the value has one less than the condition. -/
theorem count_condition {piece : GoString} {cond : GoString × GoString}
    (h : condition piece = some cond) :
    0x3D ∉ cond.1 ∧ cond.2.count 0x3D + 1 ≤ piece.count 0x3D := by
  unfold condition at h
  simp only at h
  split at h
  · next eqIdx hidx =>
    split_ifs at h with hpos
    obtain rfl := Option.some.inj h
    obtain ⟨-, ⟨rest, hrest⟩, hfirst⟩ := index_eq_some hidx
    have hdrop : (trimSpace piece).drop (eqIdx + 1) = rest := by
      rw [← List.drop_drop, ← hrest]
      rfl
    have htext : trimSpace piece = (trimSpace piece).take eqIdx ++ 0x3D :: rest := by
      conv_lhs => rw [← List.take_append_drop eqIdx (trimSpace piece), ← hrest]
      rfl
    constructor
    · intro hmem
      obtain ⟨j, hj, hget⟩ := List.getElem_of_mem ((trimSpace_sublist _).subset hmem)
      rw [List.getElem_take] at hget
      rw [List.length_take, lt_min_iff] at hj
      refine hfirst j hj.1 ⟨(trimSpace piece).drop (j + 1), ?_⟩
      rw [List.drop_eq_getElem_cons hj.2, hget]
      rfl
    · have hvalue := ((infix_trim _ (str "\"'")).sublist.trans
        (trimSpace_sublist ((trimSpace piece).drop (eqIdx + 1)))).count_le 0x3D
      have hpiece := (trimSpace_sublist piece).count_le 0x3D
      rw [htext, List.count_append, List.count_cons_self] at hpiece
      rw [hdrop] at hvalue
      simp only [hdrop]
      omega
  · cases h

theorem pieces_sublist {expr piece : GoString} (h : piece ∈ pieces expr) :
    piece.Sublist expr := by
  have hfrom : ∀ (os : List ℕ) (start : ℕ), piece ∈ piecesFrom expr start os →
      piece.Sublist expr := by
    intro os
    induction os with
    | nil =>
      intro start h
      rw [piecesFrom, List.mem_singleton] at h
      rw [h]
      exact List.drop_sublist _ _
    | cons o os ih =>
      intro start h
      rw [piecesFrom] at h
      rcases List.mem_cons.mp h with rfl | h
      · exact (List.drop_sublist _ _).trans (List.take_sublist _ _)
      · exact ih _ h
  exact hfrom _ 0 h

theorem count_stageConditions {part : GoString} {cond : GoString × GoString}
    (h : cond ∈ stageConditions part) :
    0x3D ∉ cond.1 ∧ cond.2.count 0x3D + 1 ≤ part.count 0x3D := by
  by_cases hfilter : IsFilter part
  · rw [stageConditions_of_filter hfilter] at h
    obtain ⟨piece, hpiece, hread⟩ := List.mem_filterMap.mp h
    obtain ⟨hfield, hcount⟩ := count_condition hread
    have hsub : piece.Sublist part :=
      (pieces_sublist hpiece).trans ((trimSpace_sublist _).trans (List.drop_sublist _ _))
    exact ⟨hfield, hcount.trans (hsub.count_le _)⟩
  · rw [stageConditions_of_not hfilter] at h
    cases h

end Count

/-! ### The first condition of a stage -/

theorem toLower_append {g : GoString} (hg : ∀ b ∈ g, b.toNat < 0x80) (t : GoString) :
    toLower (g ++ t) = g.map lowerByte ++ toLower t := by
  induction g with
  | nil => rfl
  | cons b g ih =>
    obtain ⟨hb, hrest⟩ := List.forall_mem_cons.mp hg
    rw [List.cons_append, toLower_cons_ascii hb, ih hrest]
    rfl

/-- A text of ASCII bytes in which no separator begins, whatever stands behind it. -/
structure Guard (g : GoString) : Prop where
  ascii : ∀ b ∈ g, b.toNat < 0x80
  noCut : ∀ o < g.length, (∃ b ∈ (g.map lowerByte)[o]?, b ≠ 0x20) ∨
    ∃ b ∈ (g.map lowerByte)[o + 1]?, b ≠ 0x61

/-- The cuts of an expression are behind its guard. -/
theorem Guard.le_of_mem_cuts {g : GoString} (hg : Guard g) {t : GoString} {o : ℕ}
    (ho : o ∈ cuts andSep (toLower (g ++ t))) : g.length ≤ o := by
  by_contra hlt
  rw [not_le] at hlt
  obtain ⟨-, ⟨rest, hrest⟩⟩ := prefix_of_mem_cutsFrom ho
  rw [toLower_append hg.ascii, Nat.sub_zero, andSep_eq] at hrest
  have hget : ∀ i < 2, ((g.map lowerByte ++ toLower t).drop o)[i]? =
      ([0x20, 0x61] : GoString)[i]? := by
    intro i hi
    rw [← hrest]
    interval_cases i <;> rfl
  have hzero := hget 0 (by decide)
  have hone := hget 1 (by decide)
  rw [List.getElem?_drop] at hzero hone
  rcases hg.noCut o hlt with ⟨b, hb, hne⟩ | ⟨b, hb, hne⟩
  · rw [Nat.add_zero, List.getElem?_append_left (by simpa using hlt), Option.mem_def.mp hb] at hzero
    exact hne (Option.some.inj hzero)
  · have hin := (List.getElem?_eq_some_iff.mp (Option.mem_def.mp hb)).1
    rw [List.getElem?_append_left hin, Option.mem_def.mp hb] at hone
    exact hne (Option.some.inj hone)

/-- **The first piece of an expression** has its guard. -/
theorem Guard.pieces_eq {g : GoString} (hg : Guard g) (t : GoString) :
    (cuts andSep (toLower (g ++ t)) = [] ∧ pieces (g ++ t) = [g ++ t]) ∨
      ∃ o rest, g.length + o ∈ cuts andSep (toLower (g ++ t)) ∧
        pieces (g ++ t) = (g ++ t.take o) :: rest := by
  cases hcuts : cuts andSep (toLower (g ++ t)) with
  | nil =>
    refine Or.inl ⟨rfl, ?_⟩
    rw [pieces, hcuts]
    rfl
  | cons o os =>
    have hle : g.length ≤ o := hg.le_of_mem_cuts (t := t) (by rw [hcuts]; exact List.mem_cons_self)
    obtain ⟨k, rfl⟩ := Nat.exists_eq_add_of_le hle
    refine Or.inr ⟨k, piecesFrom (g ++ t) (g.length + k + 5) os, List.mem_cons_self, ?_⟩
    rw [pieces, hcuts, piecesFrom, List.take_length_add_append, List.drop_zero]

theorem index_equals_append {f : GoString} (hf : 0x3D ∉ f) (t : GoString) :
    index (str "=") (f ++ 0x3D :: t) = some f.length := by
  induction f with
  | nil => rfl
  | cons c f ih =>
    obtain ⟨hne, hrest⟩ := List.ne_and_not_mem_of_not_mem_cons hf
    have hnot : ¬((str "=").isPrefixOf (c :: (f ++ 0x3D :: t)) = true) := by
      rw [show str "=" = [0x3D] from rfl]
      simpa using hne
    rw [List.cons_append, index, if_neg hnot, ih hrest]
    rfl

theorem firm_quoted {f : GoString} (hf : Firm f) : Firm (f ++ str " = \"") := by
  obtain ⟨b, hb, hvis⟩ := hf.first
  obtain ⟨f', rfl⟩ := List.head?_eq_some_iff.mp hb
  refine ⟨⟨b, rfl, hvis⟩, ⟨0x22, ?_, by decide⟩, ?_, ?_⟩
  · rw [List.getLast?_append]
    rfl
  · rw [List.mem_append, not_or]
    exact ⟨hf.newline, by decide⟩
  · rw [List.mem_append, not_or]
    exact ⟨hf.slash, by decide⟩

/-- **What a quoted condition says**: the field, and what is between the quotes. -/
theorem condition_append {f : GoString} (hf : Firm f) (heq : 0x3D ∉ f) (t : GoString) :
    condition (f ++ str " = \"" ++ t) =
      some (f, trim (0x22 :: trimEnd t) (str "\"'")) := by
  have hquote : Firm [0x22] :=
    ⟨⟨0x22, rfl, by decide⟩, ⟨0x22, rfl, by decide⟩, by decide, by decide⟩
  have htext : f ++ str " = \"" ++ trimEnd t =
      (f ++ [0x20]) ++ 0x3D :: 0x20 :: ([0x22] ++ trimEnd t) := by
    rw [show str " = \"" = [0x20, 0x3D, 0x20, 0x22] from rfl]
    simp
  have hfield : 0x3D ∉ f ++ [0x20] := by simpa using heq
  have hblank : trimEnd [0x20] = [] := by decide +kernel
  have hdrop : (f ++ [0x20] ++ 0x3D :: 0x20 :: ([0x22] ++ trimEnd t)).drop
      ((f ++ [0x20]).length + 1) = 0x20 :: ([0x22] ++ trimEnd t) := by
    rw [← List.drop_drop, List.drop_left]
    rfl
  unfold condition
  simp only
  rw [trimSpace_append (firm_quoted hf), htext, index_equals_append hfield]
  simp only
  rw [if_pos (by simp), List.take_left, trimSpace_append hf, hblank, List.append_nil, hdrop,
    trimSpace_space, trimSpace_append hquote, trimEnd_idem]
  rfl

/-! ### A query of one quoted condition -/

theorem isFilter_append (t : GoString) : IsFilter (str "filter" ++ t) := by
  have hlower : (str "filter").map lowerByte = str "filter" := by decide +kernel
  rw [IsFilter, toLower_append (by decide +kernel), hlower, hasPrefix,
    List.isPrefixOf_iff_prefix]
  exact List.prefix_append _ _

theorem filterText_append {g : GoString} (hg : Firm g) (t : GoString) :
    filterText (str "filter" ++ (0x20 :: (g ++ t))) = g ++ trimEnd t := by
  rw [filterText, show 6 = (str "filter").length from rfl, List.drop_left, trimSpace_space,
    trimSpace_append hg]

theorem prefix_splitGo (b : UInt8) (s : GoString) : (splitGo [b] 0 s).1 <+: s := by
  induction s with
  | nil => exact List.prefix_rfl
  | cons c s ih =>
    rw [splitGo]
    split_ifs
    · exact List.nil_prefix
    · rw [List.cons_prefix_cons]
      exact ⟨rfl, ih⟩

/-- A field that a quoted condition can open a query with. -/
structure Field (f : GoString) : Prop where
  firm : Firm f
  equals : 0x3D ∉ f
  noBar : bar ∉ f
  guard : Guard (f ++ str " = \"")

/-- The stage that a quoted condition opens. -/
def quotedStage (f : GoString) : GoString := str "filter" ++ 0x20 :: (f ++ str " = \"")

section Quoted

variable {f : GoString} (hf : Field f)

include hf

theorem firm_quotedStage : Firm (quotedStage f) := by
  have hquoted := firm_quoted hf.firm
  obtain ⟨c, hc, hvis⟩ := hquoted.last
  refine ⟨⟨0x66, rfl, by decide⟩, ⟨c, ?_, hvis⟩, ?_, ?_⟩
  · rw [quotedStage, List.getLast?_append, List.getLast?_cons, Option.mem_def.mp hc]
    rfl
  · rw [quotedStage, List.mem_append, List.mem_cons, not_or, not_or]
    exact ⟨by decide +kernel, by decide, hquoted.newline⟩
  · rw [quotedStage, List.mem_append, List.mem_cons, not_or, not_or]
    exact ⟨by decide +kernel, by decide, hquoted.slash⟩

theorem bar_notMem_quotedStage : bar ∉ quotedStage f := by
  rw [quotedStage, List.mem_append, List.mem_cons, List.mem_append, not_or, not_or, not_or]
  exact ⟨by decide +kernel, by decide, hf.noBar, by decide⟩

theorem filterText_quotedStage (t : GoString) :
    filterText (quotedStage f ++ trimEnd t) = f ++ str " = \"" ++ trimEnd t := by
  rw [quotedStage, List.append_assoc, List.cons_append, filterText_append (firm_quoted hf.firm),
    trimEnd_idem]

/-- The conditions of the stage. -/
theorem stageConditions_quotedStage (t : GoString) :
    stageConditions (quotedStage f ++ trimEnd t) =
      (pieces (f ++ str " = \"" ++ trimEnd t)).filterMap condition := by
  have hfilter : IsFilter (quotedStage f ++ trimEnd t) := by
    rw [quotedStage, List.append_assoc]
    exact isFilter_append _
  rw [stageConditions_of_filter hfilter, filterText_quotedStage hf]

/-- **The first condition of the query** is on its field, and the value is between the quotes of
what is left of the text. -/
theorem first_condition (t : GoString) : ∃ t', t' <+: openTail t ∧
    (f, trim (0x22 :: trimEnd t') (str "\"'")) ∈
      queryConditions (endpointOpening ++ (quotedStage f ++ t)) := by
  have hprefix : trimEnd (splitGo [bar] 0 (openTail t)).1 <+: openTail t :=
    (prefix_trimEnd _).trans (prefix_splitGo bar _)
  obtain ⟨t', rest, ht', hpieces⟩ : ∃ t' rest,
      t' <+: trimEnd (splitGo [bar] 0 (openTail t)).1 ∧
        pieces (f ++ str " = \"" ++ trimEnd (splitGo [bar] 0 (openTail t)).1) =
          (f ++ str " = \"" ++ t') :: rest := by
    rcases hf.guard.pieces_eq (trimEnd (splitGo [bar] 0 (openTail t)).1) with
      ⟨-, h⟩ | ⟨o, rest, -, h⟩
    · exact ⟨_, [], List.prefix_rfl, h⟩
    · exact ⟨_, rest, List.take_prefix _ _, h⟩
  refine ⟨t', ht'.trans hprefix, ?_⟩
  rw [queryConditions, laterStages_open (firm_quotedStage hf) (bar_notMem_quotedStage hf),
    List.flatMap_cons, stageConditions_quotedStage hf, hpieces, List.filterMap_cons,
    condition_append hf.firm hf.equals]
  exact List.mem_append_left _ List.mem_cons_self

end Quoted

end Query

end Xsiam
