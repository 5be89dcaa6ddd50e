import Xsiam.Query.Verbatim

/-!
# Texts on several lines

What a user writes for a query may be laid out on several lines, with white space and comments
between its words. The parsers put a query on one line first; here it is said what that makes of a
text that is written as words with gaps between them (`Xsiam.Query.openTail_layout`): each word
stays as it is, and a gap stays white space, one space for each line break in it.

White space is what Go calls so, in ASCII or not, so the seams between words are looked at as seams
between runes (`Xsiam.Query.Fresh`): no white space and no letter comes about where two texts meet.
-/

namespace Xsiam

namespace Query

open Go Etl Separator

/-! ### Seams between runes -/

/-- A text does not begin within a rune. -/
def Fresh (t : GoString) : Prop := ∀ b ∈ t.head?, isCont b = false

theorem fresh_nil : Fresh [] := fun _ hb => nomatch hb

theorem fresh_cons {b : UInt8} (hb : isCont b = false) (t : GoString) : Fresh (b :: t) := by
  intro c hc
  obtain rfl := Option.some.inj hc
  exact hb

theorem isCont_of_ascii {b : UInt8} (hb : b.toNat < 0x80) : isCont b = false := by
  rw [isCont, decide_eq_false_iff_not]
  omega

theorem Fresh.of_prefix {s t : GoString} (ht : Fresh t) (h : s <+: t) : Fresh s := by
  obtain ⟨u, rfl⟩ := h
  cases s with
  | nil => exact fresh_nil
  | cons b s => exact fresh_cons (ht b rfl) s

theorem Fresh.append {s t : GoString} (hs : Fresh s) (ht : Fresh t) : Fresh (s ++ t) := by
  cases s with
  | nil => exact ht
  | cons b s => exact fresh_cons (hs b rfl) _

/-- What a rune is decoded to does not depend on what stands behind a seam. -/
theorem decodeRune_append (b : UInt8) (bs : GoString) {t : GoString} (ht : Fresh t) :
    decodeRune b (bs ++ t) = decodeRune b bs := by
  have hsecond : ∀ c, isCont c = false → secondOk b c = false := by
    intro c hc
    rw [Bool.eq_false_iff]
    intro hok
    rw [isCont, decide_eq_false_iff_not] at hc
    rw [secondOk] at hok
    split_ifs at hok <;> simp only [isCont, decide_eq_true_eq] at hok <;> omega
  rcases t with _ | ⟨c, t⟩
  · rw [List.append_nil]
  have hc : isCont c = false := ht c rfl
  rcases bs with _ | ⟨b₁, _ | ⟨b₂, _ | ⟨b₃, bs⟩⟩⟩
  · rcases t with _ | ⟨c₁, _ | ⟨c₂, t⟩⟩ <;> simp [decodeRune, hc, hsecond c hc]
  · rcases t with _ | ⟨c₁, t⟩ <;> simp [decodeRune, hc]
  · simp [decodeRune, hc]
  · simp [decodeRune]

theorem decodeRune_le (b : UInt8) (bs : GoString) : (decodeRune b bs).2 ≤ bs.length := by
  simp only [decodeRune]
  repeat' split
  all_goals simp

/-- **Texts that meet between runes are lower-cased each on its own.** -/
theorem toLower_append_fresh {t : GoString} (ht : Fresh t) (n : ℕ) : ∀ s : GoString, s.length ≤ n →
    toLower (s ++ t) = toLower s ++ toLower t := by
  induction n with
  | zero =>
    intro s hs
    obtain rfl : s = [] := List.length_eq_zero_iff.mp (by omega)
    rfl
  | succ n ih =>
    intro s hs
    rcases s with _ | ⟨b, bs⟩
    · rfl
    have hle := decodeRune_le b bs
    rw [List.length_cons] at hs
    have hstep : ∀ u : GoString, toLower (b :: u) =
        encodeRune (unicodeToLower (decodeRune b u).1) ++ toLower (u.drop (decodeRune b u).2) := by
      intro u
      rw [toLower, mapRunes, mapRunes_drop]
      rfl
    rw [List.cons_append, hstep, hstep, decodeRune_append b bs ht,
      List.drop_append_of_le_length hle, ih _ (by rw [List.length_drop]; omega), List.append_assoc]

/-! ### White space -/

/-- White space on one line. -/
inductive White : GoString → Prop
  | nil : White []
  | cons {w g : GoString} (hw : w ∈ spaces) (hline : w ≠ [0x0A]) (hg : White g) : White (w ++ g)

/-- A text that is no white space at its beginning, nor at its end. -/
structure Trimmed (s : GoString) : Prop where
  nonempty : s ≠ []
  front : ∀ w ∈ spaces, ¬w <+: s
  back : ∀ w ∈ spaces, ¬w <:+ s
  fresh : Fresh s

/-- A space is one rune. -/
theorem spaces_rune : ∀ w ∈ spaces, w ≠ [] ∧ (∀ b ∈ w.head?, isCont b = false) ∧
    ∀ b ∈ w.tail, isCont b = true := by
  decide +kernel

theorem spaces_prefix : ∀ w ∈ spaces, ∀ w' ∈ spaces, w <+: w' → w = w' := by decide +kernel

theorem spaces_suffix : ∀ w ∈ spaces, ∀ w' ∈ spaces, w <:+ w' → w = w' := by decide +kernel

/-- The space is the only one that begins or ends with its byte, and the line break the only one that
has it. -/
theorem spaces_byte : ∀ w ∈ spaces, (w.head? = some 0x20 → w = [0x20]) ∧
    (w.getLast? = some 0x20 → w = [0x20]) ∧ (w ≠ [0x0A] → 0x0A ∉ w) := by
  decide +kernel

section Words

variable {ws : List GoString}

theorem dropWords_drop (k : ℕ) : ∀ s : GoString, dropWords ws k s = dropWords ws 0 (s.drop k) := by
  induction k with
  | zero => exact fun s => rfl
  | succ k ih =>
    intro s
    cases s with
    | nil => rfl
    | cons b s => exact ih s

/-- A word at the front is dropped. -/
theorem dropWords_word (hws : ∀ w ∈ ws, ∀ w' ∈ ws, w <+: w' → w = w') {w : GoString} (hw : w ∈ ws)
    (s : GoString) : dropWords ws 0 (w ++ s) = dropWords ws 0 s := by
  rcases w with _ | ⟨b, w⟩
  · rfl
  have hsome : (ws.find? (·.isPrefixOf (b :: (w ++ s)))).isSome = true := by
    rw [List.find?_isSome]
    exact ⟨b :: w, hw, by simp⟩
  obtain ⟨x, hx⟩ := Option.isSome_iff_exists.mp hsome
  have hprefix : x <+: b :: w ++ s := by simpa using List.find?_some hx
  have hmem := List.mem_of_find?_eq_some hx
  have hsame : x = b :: w := by
    rcases List.prefix_or_prefix_of_prefix hprefix (List.prefix_append (b :: w) s) with h | h
    · exact hws x hmem _ hw h
    · exact (hws _ hw x hmem h).symm
  rw [List.cons_append, dropWords, hx, hsame]
  simp only
  rw [dropWords_drop, List.length_cons, Nat.add_sub_cancel, List.drop_left]

theorem dropWords_of_none {s : GoString} (h : ∀ w ∈ ws, ¬w <+: s) : dropWords ws 0 s = s := by
  cases s with
  | nil => rfl
  | cons b s =>
    have hnone : ws.find? (·.isPrefixOf (b :: s)) = none := by
      rw [List.find?_eq_none]
      intro w hw
      simpa using h w hw
    rw [dropWords, hnone]

end Words

theorem dropWords_space {w : GoString} (hw : w ∈ spaces) (s : GoString) :
    dropWords spaces 0 (w ++ s) = dropWords spaces 0 s :=
  dropWords_word spaces_prefix hw s

theorem trimEnd_space {w : GoString} (hw : w ∈ spaces) (s : GoString) :
    trimEnd (s ++ w) = trimEnd s := by
  have hws : ∀ w ∈ spaces.map List.reverse, ∀ w' ∈ spaces.map List.reverse, w <+: w' → w = w' := by
    intro w hw w' hw' h
    obtain ⟨x, hx, rfl⟩ := List.mem_map.mp hw
    obtain ⟨x', hx', rfl⟩ := List.mem_map.mp hw'
    rw [spaces_suffix x hx x' hx' (List.reverse_prefix.mp h)]
  rw [trimEnd, trimEnd, List.reverse_append, dropWords_word hws (List.mem_map_of_mem hw)]

theorem trimEnd_of_none {s : GoString} (h : ∀ w ∈ spaces, ¬w <:+ s) : trimEnd s = s := by
  have hnone : ∀ w ∈ spaces.map List.reverse, ¬w <+: s.reverse := by
    intro w hw
    obtain ⟨x, hx, rfl⟩ := List.mem_map.mp hw
    rw [List.reverse_prefix]
    exact h x hx
  rw [trimEnd, dropWords_of_none hnone, List.reverse_reverse]

/-- No space comes about at a seam: in front of it none begins, -/
theorem not_prefix_append_fresh {s : GoString} (hs : s ≠ []) (h : ∀ w ∈ spaces, ¬w <+: s)
    {t : GoString} (ht : Fresh t) : ∀ w ∈ spaces, ¬w <+: s ++ t := by
  intro w hw hpre
  rcases List.prefix_or_prefix_of_prefix hpre (List.prefix_append s t) with hin | ⟨u, rfl⟩
  · exact h w hw hin
  · rw [List.prefix_append_right_inj] at hpre
    rcases u with _ | ⟨b, u⟩
    · exact h s (by simpa using hw) List.prefix_rfl
    · -- the byte behind the seam would continue the space
      obtain ⟨c, s', rfl⟩ := List.exists_cons_of_ne_nil hs
      have hcont : isCont b = true := (spaces_rune _ hw).2.2 b (by simp)
      rw [ht.of_prefix hpre b rfl] at hcont
      cases hcont

/-- and behind it none ends. -/
theorem not_suffix_append_fresh {s : GoString} (hs : s ≠ []) (hfresh : Fresh s)
    (h : ∀ w ∈ spaces, ¬w <:+ s) (p : GoString) : ∀ w ∈ spaces, ¬w <:+ p ++ s := by
  intro w hw hsuf
  rcases List.suffix_or_suffix_of_suffix hsuf (List.suffix_append p s) with hin | ⟨u, rfl⟩
  · exact h w hw hin
  · rcases u with _ | ⟨c, u⟩
    · exact h s (by simpa using hw) List.suffix_rfl
    · obtain ⟨b, s', rfl⟩ := List.exists_cons_of_ne_nil hs
      have hcont : isCont b = true := (spaces_rune _ hw).2.2 b (by simp)
      rw [hfresh b rfl] at hcont
      cases hcont

/-- **What stands in front of a seam keeps the trimming behind it.** -/
theorem trimEnd_append_fresh {s : GoString} (hs : Trimmed s) (p : GoString) (n : ℕ) :
    ∀ t : GoString, t.length ≤ n → Fresh t → trimEnd (p ++ s ++ t) = p ++ s ++ trimEnd t := by
  have hnone := not_suffix_append_fresh hs.nonempty hs.fresh hs.back p
  induction n with
  | zero =>
    intro t ht _
    obtain rfl : t = [] := List.length_eq_zero_iff.mp (by omega)
    rw [List.append_nil, trimEnd_of_none hnone]
    simp [trimEnd, dropWords]
  | succ n ih =>
    intro t ht hfresh
    by_cases hspace : ∃ w ∈ spaces, w <:+ t
    · obtain ⟨w, hw, t', rfl⟩ := hspace
      have hpos := List.length_pos_iff.mpr (spaces_rune w hw).1
      rw [List.length_append] at ht
      rw [← List.append_assoc, trimEnd_space hw, trimEnd_space hw]
      exact ih t' (by omega) (hfresh.of_prefix (List.prefix_append _ _))
    · simp only [not_exists, not_and] at hspace
      rcases t with _ | ⟨b, t⟩
      · rw [List.append_nil, trimEnd_of_none hnone]
        simp [trimEnd, dropWords]
      · rw [trimEnd_of_none hspace, trimEnd_of_none
          (not_suffix_append_fresh (List.cons_ne_nil b t) hfresh hspace (p ++ s))]

/-! ### White space around a text -/

namespace White

variable {g : GoString}

theorem fresh_append (hg : White g) {t : GoString} (ht : Fresh t) : Fresh (g ++ t) := by
  induction hg with
  | nil => exact ht
  | cons hw _ _ ih =>
    rw [List.append_assoc]
    have hfirst : Fresh _ := (spaces_rune _ hw).2.1
    exact hfirst.append ih

theorem append {g' : GoString} (hg : White g) (hg' : White g') : White (g ++ g') := by
  induction hg with
  | nil => exact hg'
  | cons hw hline _ ih =>
    rw [List.append_assoc]
    exact .cons hw hline ih

theorem space_cons (hg : White g) : White (0x20 :: g) :=
  .cons (w := [0x20]) (by decide) (by decide) hg

theorem replicate (k : ℕ) : White (List.replicate k 0x20) := by
  induction k with
  | zero => exact .nil
  | succ k ih => exact ih.space_cons

/-- White space has no visible byte, and on one line no line break. -/
theorem notMem (hg : White g) {b : UInt8} (hb : Visible b ∨ b = 0x0A) : b ∉ g := by
  induction hg with
  | nil => exact List.not_mem_nil
  | cons hw hne _ ih =>
    rw [List.mem_append, not_or]
    refine ⟨?_, ih⟩
    rcases hb with hb | rfl
    · exact (spaces_visible hb _ hw).2
    · exact (spaces_byte _ hw).2.2 hne

theorem dropWords_append (hg : White g) (s : GoString) :
    dropWords spaces 0 (g ++ s) = dropWords spaces 0 s := by
  induction hg with
  | nil => rfl
  | cons hw _ _ ih => rw [List.append_assoc, dropWords_space hw, ih]

theorem trimEnd_append (hg : White g) : ∀ s : GoString, trimEnd (s ++ g) = trimEnd s := by
  induction hg with
  | nil => exact fun s => by rw [List.append_nil]
  | cons hw _ _ ih => exact fun s => by rw [← List.append_assoc, ih, trimEnd_space hw]

theorem trimEnd_eq (hg : White g) : trimEnd g = [] := hg.trimEnd_append []

theorem trimSpace_eq (hg : White g) : trimSpace g = [] := by
  have hdrop := hg.dropWords_append []
  rw [List.append_nil] at hdrop
  rw [trimSpace, hdrop]
  rfl

end White

/-- **Trimming behind a text takes the white space in front of it.** -/
theorem Trimmed.trimSpace_append {s : GoString} (hs : Trimmed s) {y : GoString} (hy : White y)
    {t : GoString} (ht : Fresh t) : trimSpace (y ++ (s ++ t)) = s ++ trimEnd t := by
  have hfront := dropWords_of_none (not_prefix_append_fresh hs.nonempty hs.front ht)
  have hend := trimEnd_append_fresh hs [] _ t le_rfl ht
  rw [List.nil_append] at hend
  rw [trimSpace, hy.dropWords_append, hfront]
  exact hend

theorem Trimmed.trimSpace_eq {s : GoString} (hs : Trimmed s) {y x : GoString} (hy : White y)
    (hx : White x) : trimSpace (y ++ (s ++ x)) = s := by
  have hfresh := hx.fresh_append fresh_nil
  rw [List.append_nil] at hfresh
  rw [hs.trimSpace_append hy hfresh, hx.trimEnd_eq, List.append_nil]

/-- A text between visible bytes. -/
theorem trimmed_of_visible {s : GoString} (hfirst : ∃ b ∈ s.head?, Visible b)
    (hlast : ∃ b ∈ s.getLast?, Visible b) : Trimmed s := by
  obtain ⟨b, hb, hvis⟩ := hfirst
  obtain ⟨c, hc, hvis'⟩ := hlast
  obtain ⟨s', rfl⟩ := List.head?_eq_some_iff.mp hb
  refine ⟨List.cons_ne_nil b s', fun w hw hpre => ?_, fun w hw hsuf => ?_, ?_⟩
  · obtain ⟨hne, hnot⟩ := spaces_visible hvis w hw
    obtain ⟨x, w, rfl⟩ := List.exists_cons_of_ne_nil hne
    rw [List.cons_prefix_cons] at hpre
    exact hnot (hpre.1 ▸ List.mem_cons_self)
  · obtain ⟨hne, hnot⟩ := spaces_visible hvis' w hw
    obtain ⟨u, hu⟩ := hsuf
    have hlast : (b :: s').getLast? = w.getLast? := by
      rw [← hu, List.getLast?_append_of_ne_nil _ hne]
    exact hnot (List.mem_of_getLast? (hlast ▸ hc))
  · exact fresh_cons (isCont_of_ascii (by have := hvis.2; omega)) s'

/-! ### Gaps and words -/

/-- What may end a line: nothing, or a comment. -/
def IsComment (c : GoString) : Prop := c = [] ∨ ∃ u, 0x0A ∉ u ∧ c = str "//" ++ u

/-- A gap between words: white space, with line breaks in it. -/
structure Gap where
  /-- What stands before each line break: white space, and maybe a comment. -/
  lines : List (GoString × GoString) := []
  /-- The white space behind them. -/
  last : GoString := []
  isLine : ∀ l ∈ lines, White l.1 ∧ IsComment l.2
  isLast : White last

/-- A gap as it is written. -/
def Gap.text (g : Gap) : GoString := g.lines.flatMap (fun l => l.1 ++ (l.2 ++ [0x0A])) ++ g.last

/-- A gap on one line: each line break is a space. -/
def Gap.oneLine (g : Gap) : GoString :=
  if g.lines = [] then g.last else List.replicate g.lines.length 0x20

/-- No gap. -/
def Gap.tight : Gap := ⟨[], [], by simp, .nil⟩

/-- One space. -/
def Gap.space : Gap := ⟨[], [0x20], by simp, .cons (w := [0x20]) (by decide) (by decide) .nil⟩

/-- A word, and the gap in front of it. -/
structure Token where
  gap : Gap
  text : GoString

/-- Words as they are written. -/
def layout (toks : List Token) : GoString := toks.flatMap fun t => t.gap.text ++ t.text

/-- Words on one line. -/
def oneLine (toks : List Token) : GoString := toks.flatMap fun t => t.gap.oneLine ++ t.text

@[simp] theorem layout_cons (t : Token) (toks : List Token) :
    layout (t :: toks) = t.gap.text ++ (t.text ++ layout toks) := by
  rw [layout, List.flatMap_cons, List.append_assoc]
  rfl

@[simp] theorem layout_append (toks toks' : List Token) :
    layout (toks ++ toks') = layout toks ++ layout toks' := List.flatMap_append

@[simp] theorem oneLine_cons (t : Token) (toks : List Token) :
    oneLine (t :: toks) = t.gap.oneLine ++ (t.text ++ oneLine toks) := by
  rw [oneLine, List.flatMap_cons, List.append_assoc]
  rfl

@[simp] theorem oneLine_append (toks toks' : List Token) :
    oneLine (toks ++ toks') = oneLine toks ++ oneLine toks' := List.flatMap_append

/-- No word ends in a slash that a comment begins with, up to what stands behind the last word. -/
def Apart (tail : GoString) : List Token → Prop
  | [] => True
  | t :: toks => (t.text.getLast? = some 0x2F → (layout toks ++ tail).head? ≠ some 0x2F) ∧
      Apart tail toks

instance (tail : GoString) : ∀ toks : List Token, Decidable (Apart tail toks)
  | [] => isTrue trivial
  | _ :: toks =>
    have : Decidable (Apart tail toks) := instDecidableApart tail toks
    inferInstanceAs (Decidable ((_ → _) ∧ _))

/-- A word that stays as it is: no white space is around it, and no line and no comment begins in
it. -/
structure Stays (s : GoString) : Prop where
  trimmed : Trimmed s
  newline : 0x0A ∉ s
  comment : ¬str "//" <:+: s

theorem Gap.white (g : Gap) : White g.oneLine := by
  rw [oneLine]
  split_ifs
  · exact g.isLast
  · exact .replicate _

theorem fresh_comment {c : GoString} (hc : IsComment c) (t : GoString) (ht : Fresh t) :
    Fresh (c ++ t) := by
  rcases hc with rfl | ⟨u, -, rfl⟩
  · exact ht
  · exact fresh_cons (by decide) _

theorem Gap.fresh_append (g : Gap) {t : GoString} (ht : Fresh t) : Fresh (g.text ++ t) := by
  obtain ⟨lines, last, hlines, hlast⟩ := g
  rw [text, List.append_assoc]
  cases lines with
  | nil => exact hlast.fresh_append ht
  | cons l lines =>
    obtain ⟨hwhite, hcomment⟩ := hlines l List.mem_cons_self
    rw [List.flatMap_cons, List.append_assoc, List.append_assoc, List.append_assoc]
    exact hwhite.fresh_append (fresh_comment hcomment _ (fresh_cons (by decide) _))

theorem fresh_layout {toks : List Token} (htoks : ∀ t ∈ toks, Fresh t.text) {tail : GoString}
    (htail : Fresh tail) : Fresh (layout toks ++ tail) := by
  induction toks with
  | nil => exact htail
  | cons t toks ih =>
    obtain ⟨ht, hrest⟩ := List.forall_mem_cons.mp htoks
    rw [layout_cons, List.append_assoc, List.append_assoc]
    exact t.gap.fresh_append (ht.append (ih hrest))

/-! ### Lines and comments -/

theorem not_mem_slash_of_white {g : GoString} (hg : White g) : 0x2F ∉ g :=
  hg.notMem (.inl (by decide))

theorem stripComment_cons {b : UInt8} {s : GoString} (h : ¬str "//" <+: b :: s) :
    stripComment (b :: s) = b :: stripComment s := by
  have hnot : ¬(str "//").isPrefixOf (b :: s) = true := by rwa [List.isPrefixOf_iff_prefix]
  rw [stripComment, stripComment, index, if_neg hnot]
  cases index (str "//") s with
  | none => rfl
  | some i => rfl

/-- A comment behind a text that has none begins behind it. -/
theorem stripComment_append_apart {s : GoString} (hs : ¬str "//" <:+: s) {t : GoString}
    (h : s.getLast? = some 0x2F → t.head? ≠ some 0x2F) :
    stripComment (s ++ t) = s ++ stripComment t := by
  induction s with
  | nil => rfl
  | cons b s ih =>
    have hnot : ¬str "//" <+: b :: (s ++ t) := by
      rw [show str "//" = [0x2F, 0x2F] from rfl, List.cons_prefix_cons]
      rintro ⟨rfl, hnext⟩
      cases s with
      | nil =>
        obtain ⟨t', rfl⟩ := hnext
        exact h rfl rfl
      | cons c s =>
        rw [List.cons_append, List.cons_prefix_cons] at hnext
        exact hs ⟨[], s, by simp [hnext.1, show str "//" = [0x2F, 0x2F] from rfl]⟩
    rw [List.cons_append, stripComment_cons hnot, List.cons_append]
    congr 1
    refine ih (fun hin => hs (hin.trans (List.suffix_cons b s).isInfix)) fun hlast => h ?_
    cases s with
    | nil => cases hlast
    | cons c s => exact hlast

theorem stripComment_line {g c : GoString} (hg : White g) (hc : IsComment c) :
    stripComment (g ++ c) = g := by
  rw [stripComment_append (not_mem_slash_of_white hg)]
  rcases hc with rfl | ⟨u, -, rfl⟩
  · exact List.append_nil g
  · have hslash : stripComment (str "//" ++ u) = [] := by
      rw [stripComment, show index (str "//") (str "//" ++ u) = some 0 from rfl]
      rfl
    rw [hslash, List.append_nil]

theorem newline_notMem_line {g c : GoString} (hg : White g) (hc : IsComment c) : 0x0A ∉ g ++ c := by
  rw [List.mem_append, not_or]
  refine ⟨hg.notMem (.inr rfl), ?_⟩
  rcases hc with rfl | ⟨u, hu, rfl⟩
  · exact List.not_mem_nil
  · rw [List.mem_append, not_or]
    exact ⟨by decide, hu⟩

/-! ### Words stay, and gaps go on one line -/

/-- A line of a gap is a space. -/
theorem stripComments_line {g c : GoString} (hg : White g) (hc : IsComment c) (t : GoString) :
    stripComments (g ++ (c ++ 0x0A :: t)) = 0x20 :: stripComments t := by
  rw [← List.append_assoc, stripComments, show str "\n" = [0x0A] from rfl,
    split_append_cons (newline_notMem_line hg hc), List.map_cons, stripComment_line hg hc,
    hg.trimSpace_eq, split, List.map_cons, join_cons_cons]
  rfl

theorem openTail_line {g c : GoString} (hg : White g) (hc : IsComment c) (t : GoString) :
    openTail (g ++ (c ++ 0x0A :: t)) = 0x20 :: stripComments t := by
  have hsplit := split_append_cons (newline_notMem_line hg hc) t
  rw [split, List.cons.injEq] at hsplit
  rw [← List.append_assoc, openTail, show str "\n" = [0x0A] from rfl, hsplit.1, hsplit.2,
    stripComment_line hg hc, hg.trimEnd_eq, split, List.map_cons, join_cons_cons]
  rfl

section Word

variable {s t : GoString} (hs : Stays s)

include hs

/-- What is left of the line that a word stands on. -/
theorem stripComment_word (happart : s.getLast? = some 0x2F → t.head? ≠ some 0x2F) {y : GoString}
    (hy : White y) : stripComment (y ++ (s ++ (splitGo (str "\n") 0 t).1)) =
      y ++ (s ++ stripComment (splitGo (str "\n") 0 t).1) := by
  have hline : (splitGo (str "\n") 0 t).1 <+: t := prefix_splitGo 0x0A t
  rw [stripComment_append (not_mem_slash_of_white hy),
    stripComment_append_apart hs.comment fun hlast hhead => happart hlast ?_]
  obtain ⟨u, hu⟩ := hline
  rw [← hu, List.head?_append, hhead]
  rfl

theorem split_word {y : GoString} (hy : White y) : split (y ++ (s ++ t)) (str "\n") =
    (y ++ (s ++ (splitGo (str "\n") 0 t).1)) :: (splitGo (str "\n") 0 t).2 := by
  have hnot : 0x0A ∉ y ++ s := by
    rw [List.mem_append, not_or]
    exact ⟨hy.notMem (.inr rfl), hs.newline⟩
  have hsplit := split_append hnot t
  rwa [List.append_assoc, List.append_assoc] at hsplit

variable (ht : Fresh t) (happart : s.getLast? = some 0x2F → t.head? ≠ some 0x2F)

include ht happart

/-- **A word at the beginning of a line** loses the white space in front of it. -/
theorem stripComments_word {y : GoString} (hy : White y) :
    stripComments (y ++ (s ++ t)) = s ++ openTail t := by
  have hfresh : Fresh (stripComment (splitGo (str "\n") 0 t).1) :=
    ht.of_prefix ((prefix_stripComment _).trans (prefix_splitGo 0x0A t))
  rw [stripComments, split_word hs hy, List.map_cons, stripComment_word hs happart hy,
    hs.trimmed.trimSpace_append hy hfresh, join_append]
  rfl

/-- **A word behind another** keeps it. -/
theorem openTail_word {y : GoString} (hy : White y) :
    openTail (y ++ (s ++ t)) = y ++ (s ++ openTail t) := by
  have hsplit := split_word (t := t) hs hy
  rw [split, List.cons.injEq] at hsplit
  have hend := trimEnd_append_fresh hs.trimmed y _ _ le_rfl
    (ht.of_prefix ((prefix_stripComment _).trans (prefix_splitGo 0x0A t)))
  rw [List.append_assoc, List.append_assoc] at hend
  rw [openTail, hsplit.1, hsplit.2, stripComment_word hs happart hy, show str "\n" = [0x0A] from rfl,
    hend, ← List.append_assoc, join_append, List.append_assoc]
  rfl

/-- **The gap in front of a word goes on one line.** -/
theorem openTail_gap (g : Gap) : openTail (g.text ++ (s ++ t)) = g.oneLine ++ (s ++ openTail t) := by
  obtain ⟨lines, last, hlines, hlast⟩ := g
  have hbehind : ∀ lines : List (GoString × GoString), (∀ l ∈ lines, White l.1 ∧ IsComment l.2) →
      stripComments (lines.flatMap (fun l => l.1 ++ (l.2 ++ [0x0A])) ++ (last ++ (s ++ t))) =
        List.replicate lines.length 0x20 ++ (s ++ openTail t) := by
    intro lines
    induction lines with
    | nil => exact fun _ => stripComments_word hs ht happart hlast
    | cons l lines ih =>
      intro hlines
      obtain ⟨⟨hwhite, hcomment⟩, hrest⟩ := List.forall_mem_cons.mp hlines
      rw [List.flatMap_cons, List.append_assoc, List.append_assoc, List.append_assoc,
        List.singleton_append, stripComments_line hwhite hcomment, ih hrest]
      rfl
  rw [Gap.text, Gap.oneLine, List.append_assoc]
  cases lines with
  | nil => exact openTail_word hs ht happart hlast
  | cons l lines =>
    obtain ⟨⟨hwhite, hcomment⟩, hrest⟩ := List.forall_mem_cons.mp hlines
    rw [List.flatMap_cons, List.append_assoc, List.append_assoc, List.append_assoc,
      List.singleton_append, openTail_line hwhite hcomment, hbehind lines hrest,
      if_neg (List.cons_ne_nil _ _)]
    rfl

end Word

/-- **Words that stay are put on one line.** -/
theorem openTail_layout {toks : List Token} (htoks : ∀ t ∈ toks, Stays t.text) {tail : GoString}
    (htail : Fresh tail) (happart : Apart tail toks) :
    openTail (layout toks ++ tail) = oneLine toks ++ openTail tail := by
  induction toks with
  | nil => rfl
  | cons t toks ih =>
    obtain ⟨hstays, hrest⟩ := List.forall_mem_cons.mp htoks
    obtain ⟨hslash, hapart⟩ := happart
    have hfresh : Fresh (layout toks ++ tail) :=
      fresh_layout (fun t ht => (hrest t ht).trimmed.fresh) htail
    rw [layout_cons, oneLine_cons, List.append_assoc, List.append_assoc,
      openTail_gap hstays hfresh hslash, ih hrest hapart, List.append_assoc, List.append_assoc]

/-- What stands behind the last word is white space. -/
theorem white_openTail_gap (g : Gap) {c : GoString} (hc : IsComment c) :
    White (openTail (g.text ++ c)) := by
  obtain ⟨lines, last, hlines, hlast⟩ := g
  have hend : stripComments (last ++ c) = [] := by
    rw [stripComments, show str "\n" = [0x0A] from rfl,
      split_of_notMem (newline_notMem_line hlast hc), List.map_singleton, join_singleton,
      stripComment_line hlast hc, hlast.trimSpace_eq]
  have hbehind : ∀ lines : List (GoString × GoString), (∀ l ∈ lines, White l.1 ∧ IsComment l.2) →
      White (stripComments (lines.flatMap (fun l => l.1 ++ (l.2 ++ [0x0A])) ++ (last ++ c))) := by
    intro lines
    induction lines with
    | nil =>
      intro _
      rw [List.flatMap_nil, List.nil_append, hend]
      exact .nil
    | cons l lines ih =>
      intro hlines
      obtain ⟨⟨hwhite, hcomment⟩, hrest⟩ := List.forall_mem_cons.mp hlines
      rw [List.flatMap_cons, List.append_assoc, List.append_assoc, List.append_assoc,
        List.singleton_append, stripComments_line hwhite hcomment]
      exact (ih hrest).space_cons
  rw [Gap.text, List.append_assoc]
  cases lines with
  | nil =>
    rw [List.flatMap_nil, List.nil_append, openTail_of_line (newline_notMem_line hlast hc),
      stripComment_line hlast hc, hlast.trimEnd_eq]
    exact .nil
  | cons l lines =>
    obtain ⟨⟨hwhite, hcomment⟩, hrest⟩ := List.forall_mem_cons.mp hlines
    rw [List.flatMap_cons, List.append_assoc, List.append_assoc, List.append_assoc,
      List.singleton_append, openTail_line hwhite hcomment]
    exact (hbehind lines hrest).space_cons

theorem trimEnd_cons_space (n : ℕ) : ∀ s : GoString, s.length ≤ n →
    ∃ y, White y ∧ trimEnd (0x20 :: s) = y ++ trimEnd s := by
  have hspace : White [0x20] := White.nil.space_cons
  induction n with
  | zero =>
    intro s hs
    obtain rfl : s = [] := List.length_eq_zero_iff.mp (by omega)
    exact ⟨[], .nil, hspace.trimEnd_eq⟩
  | succ n ih =>
    intro s hs
    by_cases hend : ∃ w ∈ spaces, w <:+ s
    · obtain ⟨w, hw, s', rfl⟩ := hend
      have hpos := List.length_pos_iff.mpr (spaces_rune w hw).1
      rw [List.length_append] at hs
      rw [← List.cons_append, trimEnd_space hw, trimEnd_space hw]
      exact ih s' (by omega)
    · simp only [not_exists, not_and] at hend
      rcases s with _ | ⟨b, s⟩
      · exact ⟨[], .nil, hspace.trimEnd_eq⟩
      · refine ⟨[0x20], hspace, ?_⟩
        rw [trimEnd_of_none hend, trimEnd_of_none fun w hw hsuf => ?_, List.singleton_append]
        rcases List.suffix_cons_iff.mp hsuf with rfl | hin
        · cases (spaces_byte _ hw).1 rfl
        · exact hend w hw hin

/-- A space in front stays, or goes with the white space behind it. -/
theorem openTail_space (t : GoString) : ∃ y, White y ∧ openTail (0x20 :: t) = y ++ openTail t := by
  have hsplit := split_append (b := 0x0A) (h := [0x20]) (by decide) t
  rw [split, List.cons.injEq] at hsplit
  obtain ⟨y, hy, hend⟩ := trimEnd_cons_space _ (stripComment (splitGo [0x0A] 0 t).1) le_rfl
  refine ⟨y, hy, ?_⟩
  rw [List.singleton_append] at hsplit
  rw [openTail, show str "\n" = [0x0A] from rfl, hsplit.1, hsplit.2,
    stripComment_append (h := [0x20]) (by decide), List.singleton_append, hend, join_append]
  rfl

/-- **A text is laid out as words**: the words with the gaps between them, a gap behind them, and
maybe a comment at the end. -/
def LaidOut (text : GoString) (toks : List Token) : Prop :=
  ∃ (close : Gap) (comment : GoString), IsComment comment ∧ Apart (close.text ++ comment) toks ∧
    text = layout toks ++ (close.text ++ comment)

/-- **What the parsers make of a text that is laid out as words that stay.** -/
theorem LaidOut.openTail_eq {text : GoString} {toks : List Token} (h : LaidOut text toks)
    (htoks : ∀ t ∈ toks, Stays t.text) : ∃ x, White x ∧ openTail text = oneLine toks ++ x := by
  obtain ⟨close, comment, hcomment, happart, rfl⟩ := h
  have hfresh : Fresh (close.text ++ comment) := by
    have hend := close.fresh_append (fresh_comment hcomment [] fresh_nil)
    rwa [List.append_nil] at hend
  exact ⟨_, white_openTail_gap close hcomment, openTail_layout htoks hfresh happart⟩

end Query

end Xsiam
