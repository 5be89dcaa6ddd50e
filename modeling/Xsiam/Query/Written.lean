import Xsiam.Query.Layout

/-!
# Filters as a user writes them

The rest of a query behind the word `filter`, as somebody writes it who wants equations: an equation
is a field, the sign `=` and a value, between quotes or not; equations are joined by the word `and`,
in any letter case; behind a bar there may be another filter stage, or one that has no conditions;
and between the words there may be white space, line breaks and comments
(`Xsiam.Query.Written`).

The parser reads such a text as the equations that are written in it, if nothing in a field or a
value is taken for grammar (`Xsiam.Query.PlainEquation`,
`Xsiam.Query.queryConditions_written`); and if it does, nothing is (`Xsiam.Query.plain_of_read`).
-/

namespace Xsiam

namespace Query

open Go Etl Separator

/-! ### Equations, conjunctions and stages -/

/-- None of the words of a text is `and`. -/
def NoAnd (s : GoString) : Prop := ¬andSep <:+: 0x20 :: (s.map lowerByte ++ [0x20])

instance (s : GoString) : Decidable (NoAnd s) := inferInstanceAs (Decidable (¬_))

/-- What can be written as a field. -/
structure FieldText (f : GoString) : Prop where
  trimmed : Trimmed f
  equals : 0x3D ∉ f
  noAnd : NoAnd f

/-- How a value is written: between quotes, or as it is. -/
inductive ValueText : GoString → GoString → Prop
  | quoted {q : UInt8} (hq : isQuote q = true) (v : GoString) : ValueText (q :: (v ++ [q])) v
  | bare {v : GoString} (hv : Trimmed v) (hand : NoAnd v) : ValueText v v

/-- An equation. Behind the sign there may be nothing, which is an empty value. -/
inductive IsEquation : List Token → GoString × GoString → Prop
  | value {f v : Token} {w : GoString} (g : Gap) (hf : FieldText f.text) (hv : ValueText v.text w) :
    IsEquation [f, ⟨g, str "="⟩, v] (f.text, w)
  | empty {f : Token} (g : Gap) (hf : FieldText f.text) : IsEquation [f, ⟨g, str "="⟩] (f.text, [])

/-- The field and the value are as long in lower case. -/
def Sized (kv : GoString × GoString) : Prop :=
  (toLower kv.1).length = kv.1.length ∧ (toLower kv.2).length = kv.2.length

instance (kv : GoString × GoString) : Decidable (Sized kv) := inferInstanceAs (Decidable (_ ∧ _))

/-- Equations, with `and` between spaces from one to the next. -/
inductive IsConjunction : List Token → List (GoString × GoString) → Prop
  | nil : IsConjunction [] []
  | one {toks : List Token} {kv : GoString × GoString} (h : IsEquation toks kv) :
    IsConjunction toks [kv]
  | and {toks rest : List Token} {word first : Token} {kv : GoString × GoString}
    {kvs : List (GoString × GoString)} (h : IsEquation toks kv) (hsized : Sized kv)
    (hword : word.text.map lowerByte = str "and") (hbefore : word.gap.oneLine.getLast? = some 0x20)
    (hbehind : first.gap.oneLine.head? = some 0x20) (hrest : IsConjunction (first :: rest) kvs) :
    IsConjunction (toks ++ word :: first :: rest) (kv :: kvs)

/-- The stages behind a filter, each with a bar in front of it: other filters, with their equations,
and stages that have none. -/
inductive IsStages : List Token → List (List Token × List (GoString × GoString)) → Prop
  | nil : IsStages [] []
  | filter {toks rest : List Token} {word : Token} {kvs : List (GoString × GoString)}
    {cs : List (List Token × List (GoString × GoString))} (g : Gap)
    (hword : word.text.map lowerByte = str "filter") (h : IsConjunction toks kvs)
    (hrest : IsStages rest cs) :
    IsStages (⟨g, [bar]⟩ :: word :: (toks ++ rest)) ((toks, kvs) :: cs)
  | other {toks rest : List Token} {word : Token} {kw : GoString}
    {cs : List (List Token × List (GoString × GoString))} (g : Gap)
    (hkw : kw ∈ [str "fields", str "sort", str "limit"]) (hword : word.text.map lowerByte = kw)
    (htoks : ∀ t ∈ toks, Stays t.text ∧ bar ∉ t.text) (hrest : IsStages rest cs) :
    IsStages (⟨g, [bar]⟩ :: word :: (toks ++ rest)) cs

/-- **A text is written as equations**: those of a conjunction, and of the filters behind it. -/
def Written (text : GoString) (kvs : List (GoString × GoString)) : Prop :=
  ∃ toks kvs' rest cs, IsConjunction toks kvs' ∧ IsStages rest cs ∧ LaidOut text (toks ++ rest) ∧
    kvs = ((toks, kvs') :: cs).flatMap Prod.snd

/-- An equation in which nothing is taken for grammar: its field and its value stay in one stage, no
`and` is between spaces in the value, and the value has no quotes at its ends. -/
structure PlainEquation (kv : GoString × GoString) : Prop where
  field : OneStage kv.1
  value : OneStage kv.2
  noAnd : ¬andSep <:+: kv.2.map lowerByte
  bare : Bare kv.2

/-! ### Words in any letter case -/

/-- The words of stages, and the one between equations. -/
def stageWords : List GoString := [str "and", str "filter", str "fields", str "sort", str "limit"]

theorem small_stageWords : ∀ w ∈ stageWords, w ≠ [] ∧ ∀ b ∈ w, 0x61 ≤ b.toNat ∧ b.toNat ≤ 0x7A := by
  decide +kernel

/-- The other words do not begin like `filter`. -/
theorem ne_filter : ∀ w ∈ [str "fields", str "sort", str "limit"],
    w ∈ stageWords ∧ w.take 3 ≠ str "fil" ∧ 3 ≤ w.length := by
  decide +kernel

/-- The signs of a query can be seen, and begin no comment. -/
theorem visible_signs : ∀ b ∈ str "=|", Visible b ∧ b ≠ 0x2F := by decide +kernel

theorem and_mem_stageWords : str "and" ∈ stageWords := List.mem_cons_self

theorem filter_mem_stageWords : str "filter" ∈ stageWords :=
  List.mem_cons_of_mem _ List.mem_cons_self

theorem letters_of_lower {s w : GoString} (h : s.map lowerByte = w)
    (hw : ∀ b ∈ w, 0x61 ≤ b.toNat ∧ b.toNat ≤ 0x7A) :
    ∀ b ∈ s, 0x41 ≤ b.toNat ∧ b.toNat ≤ 0x7A := by
  intro b hb
  have hlower := hw (lowerByte b) (h ▸ List.mem_map_of_mem hb)
  rw [lowerByte] at hlower
  split_ifs at hlower with hcapital
  · omega
  · omega

theorem letters_of_word {s w : GoString} (h : s.map lowerByte = w) (hw : w ∈ stageWords) :
    ∀ b ∈ s, 0x41 ≤ b.toNat ∧ b.toNat ≤ 0x7A := letters_of_lower h (small_stageWords w hw).2

theorem stays_of_visible {s : GoString} (hs : s ≠ [])
    (h : ∀ b ∈ s, Visible b ∧ b ≠ 0x2F) : Stays s where
  trimmed := by
    obtain ⟨b, s', rfl⟩ := List.exists_cons_of_ne_nil hs
    refine trimmed_of_visible ⟨b, rfl, (h b List.mem_cons_self).1⟩ ?_
    exact ⟨_, List.getLast?_eq_some_getLast hs, (h _ (List.getLast_mem hs)).1⟩
  newline := fun hmem => absurd (h _ hmem).1 (by decide)
  comment := fun hin => (h 0x2F (hin.subset (by decide))).2 rfl

/-- A word stays, in any letter case. -/
theorem stays_of_lower {s w : GoString} (h : s.map lowerByte = w) (hne : w ≠ [])
    (hw : ∀ b ∈ w, 0x61 ≤ b.toNat ∧ b.toNat ≤ 0x7A) : Stays s ∧ bar ∉ s := by
  have hletters := letters_of_lower h hw
  refine ⟨stays_of_visible (fun hnil => hne ?_) fun b hb => ?_, fun hmem => ?_⟩
  · rw [← h, hnil]
    rfl
  · obtain ⟨hlo, hhi⟩ := hletters b hb
    refine ⟨⟨by omega, by omega⟩, ?_⟩
    rintro rfl
    exact absurd hlo (by decide)
  · exact absurd (hletters bar hmem).2 (by decide)

theorem stays_of_word {s w : GoString} (h : s.map lowerByte = w) (hw : w ∈ stageWords) :
    Stays s ∧ bar ∉ s := stays_of_lower h (small_stageWords w hw).1 (small_stageWords w hw).2

/-! ### The words of equations stay -/

theorem stays_equals : Stays (str "=") ∧ bar ∉ str "=" :=
  ⟨stays_of_visible (by decide) fun b hb => visible_signs b (List.mem_append_left [bar] hb), by decide⟩

theorem stays_bar : Stays [bar] :=
  stays_of_visible (by decide) fun b hb => visible_signs b (List.mem_append_right (str "=") hb)

theorem ValueText.stays {text v : GoString} (h : ValueText text v) (hv : OneStage v) :
    Stays text ∧ bar ∉ text := by
  cases h with
  | @quoted q hq _ =>
    have hvis := visible_of_isQuote hq
    have hquote : q ≠ 0x0A ∧ q ≠ 0x2F ∧ q ≠ bar := by
      rcases (isQuote_iff q).mp hq with rfl | rfl <;> decide
    have hone : OneStage (q :: (v ++ [q])) := (oneStage_append_cons (a := []) hquote).mpr
      ⟨oneStage_nil, (oneStage_append_cons hquote).mpr ⟨hv, oneStage_nil⟩⟩
    refine ⟨⟨trimmed_of_visible ⟨q, rfl, hvis⟩ ⟨q, ?_, hvis⟩, hone.newline, hone.comment⟩, hone.noBar⟩
    rw [← List.cons_append, List.getLast?_concat]
    rfl
  | bare htrimmed hand => exact ⟨⟨htrimmed, hv.newline, hv.comment⟩, hv.noBar⟩

theorem IsEquation.stays {toks : List Token} {kv : GoString × GoString} (h : IsEquation toks kv)
    (hfield : OneStage kv.1) (hvalue : OneStage kv.2) : ∀ t ∈ toks, Stays t.text ∧ bar ∉ t.text := by
  cases h with
  | value g hf hv =>
    exact List.forall_mem_cons.mpr ⟨⟨⟨hf.trimmed, hfield.newline, hfield.comment⟩, hfield.noBar⟩,
      List.forall_mem_cons.mpr ⟨stays_equals, List.forall_mem_singleton.mpr (hv.stays hvalue)⟩⟩
  | empty g hf =>
    exact List.forall_mem_cons.mpr ⟨⟨⟨hf.trimmed, hfield.newline, hfield.comment⟩, hfield.noBar⟩,
      List.forall_mem_singleton.mpr stays_equals⟩

theorem IsConjunction.stays {toks : List Token} {kvs : List (GoString × GoString)}
    (h : IsConjunction toks kvs) (hone : ∀ kv ∈ kvs, OneStage kv.1 ∧ OneStage kv.2) :
    ∀ t ∈ toks, Stays t.text ∧ bar ∉ t.text := by
  induction h with
  | nil => exact fun t ht => absurd ht List.not_mem_nil
  | one h =>
    obtain ⟨hfield, hvalue⟩ := hone _ List.mem_cons_self
    exact h.stays hfield hvalue
  | and h _ hword _ _ _ ih =>
    obtain ⟨⟨hfield, hvalue⟩, hrest⟩ := List.forall_mem_cons.mp hone
    exact List.forall_mem_append.mpr ⟨h.stays hfield hvalue,
      List.forall_mem_cons.mpr ⟨stays_of_word hword and_mem_stageWords, ih hrest⟩⟩

/-- What the words of a conjunction are on one line, without the gap in front. -/
def coreLine : List Token → GoString
  | [] => []
  | t :: toks => t.text ++ oneLine toks

theorem trimmed_coreLine {toks : List Token} (h : ∀ t ∈ toks, Trimmed t.text) (hne : toks ≠ []) :
    Trimmed (coreLine toks) := by
  obtain ⟨t, rest, rfl⟩ := List.exists_cons_of_ne_nil hne
  obtain ⟨ht, hrest⟩ := List.forall_mem_cons.mp h
  have hfresh : ∀ toks : List Token, (∀ t ∈ toks, Trimmed t.text) → Fresh (oneLine toks) := by
    intro toks
    induction toks with
    | nil => exact fun _ => fresh_nil
    | cons t toks ih =>
      intro h
      obtain ⟨ht, hrest⟩ := List.forall_mem_cons.mp h
      rw [oneLine_cons]
      exact t.gap.white.fresh_append (ht.fresh.append (ih hrest))
  refine ⟨by simp [coreLine, ht.nonempty], not_prefix_append_fresh ht.nonempty ht.front (hfresh rest hrest),
    ?_, ht.fresh.append (hfresh rest hrest)⟩
  rcases List.eq_nil_or_concat' rest with rfl | ⟨init, last, rfl⟩
  · rw [coreLine, show oneLine [] = [] from rfl, List.append_nil]
    exact ht.back
  · have hlast : Trimmed last.text := hrest last (by simp)
    have htext : coreLine (t :: (init ++ [last])) =
        (t.text ++ (oneLine init ++ last.gap.oneLine)) ++ last.text := by
      rw [coreLine, oneLine_append, oneLine_cons, show oneLine [] = [] from rfl]
      simp
    rw [htext]
    exact not_suffix_append_fresh hlast.nonempty hlast.fresh hlast.back _

/-! ### One equation -/

/-- White space has no letters, of which the first and the last of `and` count here. -/
theorem White.noLetter {g : GoString} (hg : White g) :
    0x61 ∉ g.map lowerByte ∧ 0x64 ∉ g.map lowerByte := by
  have hspace : ∀ w ∈ spaces, 0x61 ∉ w.map lowerByte ∧ 0x64 ∉ w.map lowerByte := by decide
  induction hg with
  | nil => exact ⟨List.not_mem_nil, List.not_mem_nil⟩
  | cons hw _ _ ih =>
    rw [List.map_append, List.mem_append, List.mem_append, not_or, not_or]
    exact ⟨⟨(hspace _ hw).1, ih.1⟩, (hspace _ hw).2, ih.2⟩

/-- An `and` behind white space begins with one space of it at most, -/
theorem infix_white_append {g s : GoString} (hg : White g) (h : andSep <:+: g.map lowerByte ++ s) :
    andSep <:+: 0x20 :: s := by
  rcases List.infix_append_iff.mp h with hin | hin | ⟨u, v, huv, hu, hv⟩
  · exact absurd (hin.subset (by decide)) hg.noLetter.1
  · exact hin.trans (List.suffix_cons _ s).isInfix
  · rw [andSep_eq] at huv ⊢
    rcases u with _ | ⟨a, _ | ⟨b, u⟩⟩
    · obtain rfl : _ = v := huv
      exact hv.isInfix.trans (List.suffix_cons _ s).isInfix
    · rw [List.singleton_append, List.cons.injEq] at huv
      obtain ⟨rfl, rfl⟩ := huv
      exact (List.cons_prefix_cons.mpr ⟨rfl, hv⟩).isInfix
    · rw [List.cons_append, List.cons_append, List.cons.injEq, List.cons.injEq] at huv
      obtain ⟨-, rfl, -⟩ := huv
      exact absurd (hu.subset (by simp)) hg.noLetter.1

/-- and one in front of white space ends with one. -/
theorem infix_append_white {g s : GoString} (hg : White g) (h : andSep <:+: s ++ g.map lowerByte) :
    andSep <:+: s ++ [0x20] := by
  rcases List.infix_append_iff.mp h with hin | hin | ⟨u, v, huv, hu, hv⟩
  · exact hin.trans (List.prefix_append s _).isInfix
  · exact absurd (hin.subset (by decide)) hg.noLetter.1
  · -- what is on the right of the seam would have the last letter, unless it is the space behind it
    have hletter : 0x64 ∉ v := fun hmem => hg.noLetter.2 (hv.subset hmem)
    obtain ⟨w, rfl⟩ := hu
    have hlast : v = [] ∨ v = [0x20] := by
      rw [andSep_eq] at huv
      have hlen := congrArg List.length huv
      rw [List.length_append] at hlen
      have hdrop := congrArg (List.drop u.length) huv
      rw [List.drop_left] at hdrop
      have hle : u.length ≤ 5 := by simp only [List.length_cons, List.length_nil] at hlen; omega
      interval_cases hu : u.length <;> simp only [List.drop] at hdrop <;> subst hdrop <;> simp at hletter ⊢
    rcases hlast with rfl | rfl
    · rw [List.append_nil] at huv
      exact ⟨w, [0x20], by rw [huv]⟩
    · exact ⟨w, [], by rw [huv]; simp⟩

theorem NoAnd.between {f y x : GoString} (hf : NoAnd f) (hy : White y) (hx : White x) :
    ¬andSep <:+: (y ++ (f ++ x)).map lowerByte := by
  intro hin
  rw [List.map_append, List.map_append] at hin
  have hfront := infix_white_append hy hin
  rw [← List.cons_append] at hfront
  exact hf (infix_append_white hx hfront)

theorem White.noAnd {g : GoString} (hg : White g) : ¬andSep <:+: g.map lowerByte := fun hin =>
  hg.noLetter.1 (hin.subset (by decide))

theorem not_and_append_cons {a b : GoString} {c : UInt8} (ha : ¬andSep <:+: a.map lowerByte)
    (hb : ¬andSep <:+: b.map lowerByte) (hc : c ∉ andSep) (hlower : lowerByte c = c) :
    ¬andSep <:+: (a ++ c :: b).map lowerByte := by
  intro hin
  rw [List.map_append, List.map_cons, hlower] at hin
  exact (infix_append_cons hc hin).elim ha hb

theorem ValueText.noAnd {text v : GoString} (h : ValueText text v)
    (hand : ¬andSep <:+: v.map lowerByte) {y x : GoString} (hy : White y) (hx : White x) :
    ¬andSep <:+: (y ++ (text ++ x)).map lowerByte := by
  cases h with
  | @quoted q hq _ =>
    have hquote : q ∉ andSep ∧ lowerByte q = q := by
      rcases (isQuote_iff q).mp hq with rfl | rfl <;> decide
    rw [List.cons_append, List.append_assoc, List.singleton_append]
    exact not_and_append_cons hy.noAnd (not_and_append_cons hand hx.noAnd hquote.1 hquote.2)
      hquote.1 hquote.2
  | bare _ hword => exact hword.between hy hx

/-- **No `and` is in an equation**, with white space around it. -/
theorem IsEquation.noAnd {toks : List Token} {kv : GoString × GoString} (h : IsEquation toks kv)
    (hand : ¬andSep <:+: kv.2.map lowerByte) {y x : GoString} (hy : White y) (hx : White x) :
    ¬andSep <:+: (y ++ (coreLine toks ++ x)).map lowerByte := by
  cases h with
  | @value f v w g hf hv =>
    have htext : y ++ (coreLine [f, ⟨g, str "="⟩, v] ++ x) =
        (y ++ (f.text ++ g.oneLine)) ++ 0x3D :: (v.gap.oneLine ++ (v.text ++ x)) := by
      simp [coreLine, show str "=" = [0x3D] from rfl, show oneLine [] = [] from rfl]
    rw [htext]
    exact not_and_append_cons (hf.noAnd.between hy g.white) (hv.noAnd hand v.gap.white hx)
      (by decide) (by decide)
  | @empty f g hf =>
    have htext : y ++ (coreLine [f, ⟨g, str "="⟩] ++ x) =
        (y ++ (f.text ++ g.oneLine)) ++ 0x3D :: x := by
      simp [coreLine, show str "=" = [0x3D] from rfl, show oneLine [] = [] from rfl]
    rw [htext]
    exact not_and_append_cons (hf.noAnd.between hy g.white) hx.noAnd (by decide) (by decide)

theorem ValueText.trim_eq {text v : GoString} (h : ValueText text v) (hv : Bare v) :
    trim text (str "\"'") = v := by
  cases h with
  | quoted hq v => rw [trim_cons_quote hq, trim_concat_quote hq, trim_of_bare hv]
  | bare _ _ => exact trim_of_bare hv

theorem ValueText.trimmed {text v : GoString} (h : ValueText text v) : Trimmed text := by
  cases h with
  | @quoted q hq _ =>
    have hvis := visible_of_isQuote hq
    refine trimmed_of_visible ⟨q, rfl, hvis⟩ ⟨q, ?_, hvis⟩
    rw [← List.cons_append, List.getLast?_concat]
    rfl
  | bare htrimmed _ => exact htrimmed

theorem IsEquation.trimmed {toks : List Token} {kv : GoString × GoString} (h : IsEquation toks kv) :
    ∀ t ∈ toks, Trimmed t.text := by
  cases h with
  | value g hf hv =>
    exact List.forall_mem_cons.mpr ⟨hf.trimmed, List.forall_mem_cons.mpr
      ⟨stays_equals.1.trimmed, List.forall_mem_singleton.mpr hv.trimmed⟩⟩
  | empty g hf =>
    exact List.forall_mem_cons.mpr ⟨hf.trimmed, List.forall_mem_singleton.mpr stays_equals.1.trimmed⟩

/-- What a condition says whose field ends where the sign begins. -/
theorem condition_equation {f g r : GoString} (hf : Trimmed f) (hg : White g) (heq : 0x3D ∉ f)
    {s : GoString} (hs : trimSpace s = f ++ (g ++ 0x3D :: r)) :
    condition s = some (f, trim (trimSpace r) (str "\"'")) := by
  have hsign : 0x3D ∉ f ++ g := by
    rw [List.mem_append, not_or]
    exact ⟨heq, hg.notMem (.inl (by decide))⟩
  have hpos : 0 < (f ++ g).length := by
    rw [List.length_append]
    exact Nat.add_pos_left (List.length_pos_iff.mpr hf.nonempty) _
  have hfield : trimSpace (f ++ g) = f := hf.trimSpace_eq .nil hg
  have hdrop : (f ++ g ++ 0x3D :: r).drop ((f ++ g).length + 1) = r := by
    rw [← List.drop_drop, List.drop_left]
    rfl
  rw [condition, hs, ← List.append_assoc, index_equals_append hsign]
  simp only
  rw [if_pos hpos, List.take_left, hfield, hdrop]

/-- **An equation is read as it is written**, with white space around it. -/
theorem IsEquation.condition_eq {toks : List Token} {kv : GoString × GoString}
    (h : IsEquation toks kv) (hbare : Bare kv.2) {y x : GoString} (hy : White y) (hx : White x) :
    condition (y ++ (coreLine toks ++ x)) = some kv := by
  have hne : toks ≠ [] := by cases h <;> exact List.cons_ne_nil _ _
  have hcore := (trimmed_coreLine h.trimmed hne).trimSpace_eq hy hx
  cases h with
  | @value f v w g hf hv =>
    have htext : coreLine [f, ⟨g, str "="⟩, v] =
        f.text ++ (g.oneLine ++ 0x3D :: (v.gap.oneLine ++ v.text)) := by
      simp [coreLine, show str "=" = [0x3D] from rfl, show oneLine [] = [] from rfl]
    have hvalue : trimSpace (v.gap.oneLine ++ v.text) = v.text := by
      have h := hv.trimmed.trimSpace_eq v.gap.white .nil
      rwa [List.append_nil] at h
    rw [condition_equation hf.trimmed g.white hf.equals (hcore.trans htext), hvalue,
      hv.trim_eq hbare]
  | @empty f g hf =>
    have htext : coreLine [f, ⟨g, str "="⟩] = f.text ++ (g.oneLine ++ 0x3D :: []) := by
      simp [coreLine, show str "=" = [0x3D] from rfl, show oneLine [] = [] from rfl]
    rw [condition_equation hf.trimmed g.white hf.equals (hcore.trans htext)]
    rfl

/-! ### Where a conjunction is cut -/

/-- The first separator of a text stands where none begins before it. -/
theorem index_of_first {a t : GoString} (h : ¬andSep <:+: a ++ [0x20]) :
    index andSep (a ++ (andSep ++ t)) = some a.length := by
  have hin : andSep <:+: a ++ (andSep ++ t) := ⟨a, t, by rw [List.append_assoc]⟩
  obtain ⟨i, hi⟩ := Option.isSome_iff_exists.mp (isSome_index_iff.mpr hin)
  obtain ⟨-, hat, hfirst⟩ := index_eq_some hi
  rw [hi]
  congr 1
  rcases lt_trichotomy i a.length with hlt | heq | hgt
  · -- it would have one of its letters where the other begins, or end there
    have hsuffix : a.drop i ++ [0x20] <:+: a ++ [0x20] :=
      ⟨a.take i, [], by rw [List.append_nil, ← List.append_assoc, List.take_append_drop]⟩
    refine absurd ?_ h
    rw [List.drop_append_of_le_length hlt.le] at hat
    have hpos : a.drop i ≠ [] := by
      rw [ne_eq, List.drop_eq_nil_iff]
      omega
    generalize a.drop i = u at hsuffix hat hpos
    refine List.IsInfix.trans (List.IsPrefix.isInfix ?_) hsuffix
    rw [andSep_eq] at hat ⊢
    rcases u with _ | ⟨x₀, _ | ⟨x₁, _ | ⟨x₂, _ | ⟨x₃, u⟩⟩⟩⟩
    · exact absurd rfl hpos
    · simp [List.cons_prefix_cons] at hat
    · simp [List.cons_prefix_cons] at hat
    · simp [List.cons_prefix_cons] at hat
    · simp only [List.cons_append, List.cons_prefix_cons] at hat ⊢
      obtain ⟨h₀, h₁, h₂, h₃, hlast⟩ := hat
      refine ⟨h₀, h₁, h₂, h₃, ?_⟩
      cases u with
      | nil => exact List.prefix_rfl
      | cons x₄ u =>
        rw [List.cons_append, List.cons_prefix_cons] at hlast ⊢
        exact ⟨hlast.1, List.nil_prefix⟩
  · exact heq
  · exact absurd (by rw [List.drop_left]; exact List.prefix_append _ _) (hfirst a.length hgt)

theorem infix_toLower_iff (s : GoString) : andSep <:+: toLower s ↔ andSep <:+: s.map lowerByte := by
  rw [← not_iff_not, ← count_eq_zero_iff andSep_ne_nil, ← count_eq_zero_iff andSep_ne_nil,
    count_toLower _ s le_rfl]

theorem splitAnd_of_noAnd {s : GoString} (h : ¬andSep <:+: s.map lowerByte) :
    splitAnd s = some [s] := by
  refine splitAndLoop_of_none ?_
  rw [← infix_toLower_iff] at h
  rw [← Option.not_isSome_iff_eq_none, isSome_index_iff]
  exact h

/-- **An expression is cut at the first `and` between spaces**, if what is before it is as long in
lower case. -/
theorem splitAnd_link {a w t : GoString} (hsized : (toLower a).length = a.length)
    (hand : ¬andSep <:+: (a ++ [0x20]).map lowerByte) (hw : w.map lowerByte = str "and") :
    splitAnd (a ++ (0x20 :: (w ++ 0x20 :: t))) = (splitAnd t).map (a :: ·) := by
  have hascii : ∀ b ∈ 0x20 :: (w ++ [0x20]), b.toNat < 0x80 := by
    have hletters := letters_of_word hw and_mem_stageWords
    refine List.forall_mem_cons.mpr ⟨by decide, List.forall_mem_append.mpr
      ⟨fun b hb => ?_, List.forall_mem_singleton.mpr (by decide)⟩⟩
    have := (hletters b hb).2
    omega
  have hlen : w.length = 3 := by
    rw [← List.length_map (f := lowerByte), hw]
    rfl
  have hsep : (0x20 :: (w ++ [0x20])).map lowerByte = andSep := by
    rw [List.map_cons, List.map_append, hw]
    rfl
  have hlower : toLower (a ++ (0x20 :: (w ++ [0x20]) ++ t)) = toLower a ++ (andSep ++ toLower t) := by
    have hfresh : Fresh (0x20 :: (w ++ [0x20]) ++ t) := fresh_cons (by decide) _
    rw [toLower_append_fresh hfresh _ a le_rfl, toLower_append hascii, hsep]
  have hfirst : ¬andSep <:+: toLower a ++ [0x20] := by
    have hend : toLower (a ++ [0x20]) = toLower a ++ [0x20] :=
      toLower_append_fresh (fresh_cons (by decide) _) _ a le_rfl
    rw [← hend, infix_toLower_iff]
    exact hand
  have hindex : index andSep (toLower (a ++ (0x20 :: (w ++ [0x20]) ++ t))) = some a.length := by
    rw [hlower, index_of_first hfirst, hsized]
  have htext : a ++ (0x20 :: (w ++ 0x20 :: t)) = a ++ (0x20 :: (w ++ [0x20]) ++ t) := by simp
  have hdrop : ∀ s u : GoString, s.length = 5 → (a ++ (s ++ u)).drop (a.length + 5) = u := by
    intro s u hs
    rw [← List.drop_drop, List.drop_left, ← hs, List.drop_left]
  have hdrop' : (toLower (a ++ (0x20 :: (w ++ [0x20]) ++ t))).drop (a.length + 5) = toLower t := by
    rw [hlower, ← hsized, ← List.drop_drop, List.drop_left, ← andSep_length, List.drop_left]
  rw [htext, splitAnd, splitAndLoop_of_some hindex, if_pos (by simp [hlen]; omega), hdrop',
    hdrop _ _ (by simp [hlen]), List.take_left]
  rfl

/-! ### Lower case, word by word -/

/-- A relation between a text in lower case and the text that holds of texts put together, of white
space and of ASCII. -/
structure Piecewise (R : GoString → GoString → Prop) : Prop where
  append : ∀ {a b a' b' : GoString}, R a b → R a' b' → R (a ++ a') (b ++ b')
  nil : R [] []
  ascii : ∀ b : UInt8, b.toNat < 0x80 → R (toLower [b]) [b]
  space : ∀ w ∈ spaces, R (toLower w) w

theorem piecewise_length : Piecewise fun a b => a.length = b.length where
  append := by
    intro a b a' b' h h'
    rw [List.length_append, List.length_append, h, h']
  nil := rfl
  ascii b hb := by rw [toLower_cons_ascii hb, toLower_nil]; rfl
  space := by decide

theorem piecewise_lowerByte : Piecewise fun a b => a = b.map lowerByte where
  append := by
    intro a b a' b' h h'
    rw [List.map_append, h, h']
  nil := rfl
  ascii b hb := by rw [toLower_cons_ascii hb, toLower_nil]; rfl
  space := by decide

namespace Piecewise

variable {R : GoString → GoString → Prop} (hR : Piecewise R)

include hR

theorem append_fresh {s t : GoString} (hs : R (toLower s) s) (ht : R (toLower t) t)
    (hfresh : Fresh t) : R (toLower (s ++ t)) (s ++ t) := by
  rw [toLower_append_fresh hfresh _ s le_rfl]
  exact hR.append hs ht

theorem ascii_cons {b : UInt8} (hb : b.toNat < 0x80) {s : GoString} (hs : R (toLower s) s) :
    R (toLower (b :: s)) (b :: s) := by
  have hcons := hR.append (hR.ascii b hb) hs
  rw [toLower_cons_ascii hb, toLower_nil] at hcons
  rw [toLower_cons_ascii hb]
  exact hcons

theorem of_ascii {s : GoString} (hs : ∀ b ∈ s, b.toNat < 0x80) : R (toLower s) s := by
  induction s with
  | nil => exact hR.nil
  | cons b s ih =>
    obtain ⟨hb, hrest⟩ := List.forall_mem_cons.mp hs
    exact hR.ascii_cons hb (ih hrest)

theorem of_white {g : GoString} (hg : White g) : R (toLower g) g := by
  induction hg with
  | nil => exact hR.nil
  | cons hw _ hg ih =>
    have hfresh := hg.fresh_append fresh_nil
    rw [List.append_nil] at hfresh
    exact hR.append_fresh (hR.space _ hw) ih hfresh

theorem of_value {text v : GoString} (h : ValueText text v) (hv : R (toLower v) v) :
    R (toLower text) text := by
  cases h with
  | @quoted q hq _ =>
    have hascii : q.toNat < 0x80 := by
      have := (visible_of_isQuote hq).2
      omega
    refine hR.ascii_cons hascii (hR.append_fresh hv (hR.of_ascii ?_) ?_)
    · exact List.forall_mem_singleton.mpr hascii
    · exact fresh_cons (isCont_of_ascii hascii) []
  | bare _ _ => exact hv

/-- It holds of the words of an equation, if it does of the field and the value. -/
theorem of_equation {toks : List Token} {kv : GoString × GoString} (h : IsEquation toks kv)
    (hfield : R (toLower kv.1) kv.1) (hvalue : R (toLower kv.2) kv.2) :
    ∀ t ∈ toks, R (toLower t.text) t.text := by
  have hsign : R (toLower (str "=")) (str "=") := hR.ascii 0x3D (by decide)
  cases h with
  | value g hf hv =>
    exact List.forall_mem_cons.mpr ⟨hfield, List.forall_mem_cons.mpr
      ⟨hsign, List.forall_mem_singleton.mpr (hR.of_value hv hvalue)⟩⟩
  | empty g hf => exact List.forall_mem_cons.mpr ⟨hfield, List.forall_mem_singleton.mpr hsign⟩

theorem of_coreLine {toks : List Token} (h : ∀ t ∈ toks, Fresh t.text ∧ R (toLower t.text) t.text) :
    R (toLower (coreLine toks)) (coreLine toks) := by
  have hline : ∀ toks : List Token, (∀ t ∈ toks, Fresh t.text ∧ R (toLower t.text) t.text) →
      Fresh (oneLine toks) ∧ R (toLower (oneLine toks)) (oneLine toks) := by
    intro toks
    induction toks with
    | nil => exact fun _ => ⟨fresh_nil, hR.nil⟩
    | cons t toks ih =>
      intro h
      obtain ⟨⟨hfresh, ht⟩, hrest⟩ := List.forall_mem_cons.mp h
      obtain ⟨hfresh', hline⟩ := ih hrest
      rw [oneLine_cons]
      exact ⟨t.gap.white.fresh_append (hfresh.append hfresh'),
        hR.append_fresh (hR.of_white t.gap.white) (hR.append_fresh ht hline hfresh')
          (hfresh.append hfresh')⟩
  cases toks with
  | nil => exact hR.nil
  | cons t toks =>
    obtain ⟨⟨-, ht⟩, hrest⟩ := List.forall_mem_cons.mp h
    obtain ⟨hfresh, hrest⟩ := hline toks hrest
    exact hR.append_fresh ht hrest hfresh

end Piecewise

/-! ### A conjunction is read as it is written -/

/-- The space at the end of white space, or at its beginning, is one of its runes. -/
theorem White.of_last {g : GoString} (hg : White g) (h : g.getLast? = some 0x20) :
    ∃ x, White x ∧ g = x ++ [0x20] := by
  induction hg with
  | nil => cases h
  | @cons w g hw hline hg ih =>
    rcases List.eq_nil_or_concat' g with rfl | ⟨g', b, rfl⟩
    · rw [List.append_nil] at h ⊢
      exact ⟨[], .nil, (spaces_byte w hw).2.1 h⟩
    · rw [← List.append_assoc, List.getLast?_concat] at h
      obtain ⟨x, hx, heq⟩ := ih (by rw [List.getLast?_concat, h])
      exact ⟨w ++ x, .cons hw hline hx, by rw [heq, List.append_assoc]⟩

theorem White.of_head {g : GoString} (hg : White g) (h : g.head? = some 0x20) :
    ∃ y, White y ∧ g = 0x20 :: y := by
  cases hg with
  | nil => cases h
  | @cons w g hw hline hg =>
    obtain ⟨b, w', rfl⟩ := List.exists_cons_of_ne_nil (spaces_rune w hw).1
    obtain rfl : b = 0x20 := Option.some.inj h
    obtain rfl : w' = [] := (List.cons.inj ((spaces_byte _ hw).1 rfl)).2
    exact ⟨g, hg, rfl⟩

theorem coreLine_append {toks : List Token} (h : toks ≠ []) (toks' : List Token) :
    coreLine (toks ++ toks') = coreLine toks ++ oneLine toks' := by
  obtain ⟨t, rest, rfl⟩ := List.exists_cons_of_ne_nil h
  rw [List.cons_append, coreLine, coreLine, oneLine_append, List.append_assoc]

theorem IsEquation.ne_nil {toks : List Token} {kv : GoString × GoString} (h : IsEquation toks kv) :
    toks ≠ [] := by
  cases h <;> exact List.cons_ne_nil _ _

/-- **A conjunction is split into its equations.** -/
theorem IsConjunction.splits {toks : List Token} {kvs : List (GoString × GoString)}
    (h : IsConjunction toks kvs)
    (hplain : ∀ kv ∈ kvs, ¬andSep <:+: kv.2.map lowerByte ∧ Bare kv.2) :
    ∀ {y : GoString}, White y → ∃ parts, splitAnd (y ++ coreLine toks) = some parts ∧
      parts.filterMap condition = kvs := by
  induction h with
  | nil =>
    intro y hy
    have hcond : condition y = none := by
      rw [condition, hy.trimSpace_eq]
      rfl
    rw [coreLine, List.append_nil]
    exact ⟨[y], splitAnd_of_noAnd hy.noAnd, by rw [List.filterMap_cons_none hcond, List.filterMap_nil]⟩
  | one h =>
    intro y hy
    obtain ⟨hand, hbare⟩ := hplain _ List.mem_cons_self
    have hno := h.noAnd hand hy .nil
    have hcond := h.condition_eq hbare hy .nil
    rw [List.append_nil] at hno hcond
    exact ⟨_, splitAnd_of_noAnd hno, by rw [List.filterMap_cons_some hcond, List.filterMap_nil]⟩
  | @and toks rest word first kv kvs h hsized hword hbefore hbehind hrest ih =>
    intro y hy
    obtain ⟨⟨hand, hbare⟩, hothers⟩ := List.forall_mem_cons.mp hplain
    obtain ⟨x, hx, hgap⟩ := word.gap.white.of_last hbefore
    obtain ⟨y', hy', hgap'⟩ := first.gap.white.of_head hbehind
    obtain ⟨parts, hparts, hread⟩ := ih hothers hy'
    have htext : y ++ coreLine (toks ++ word :: first :: rest) =
        (y ++ (coreLine toks ++ x)) ++
          (0x20 :: (word.text ++ 0x20 :: (y' ++ coreLine (first :: rest)))) := by
      rw [coreLine_append h.ne_nil, oneLine_cons, oneLine_cons, hgap, hgap', coreLine]
      simp
    have hno : ¬andSep <:+: ((y ++ (coreLine toks ++ x)) ++ [0x20]).map lowerByte := by
      have h := h.noAnd hand hy (hx.append White.nil.space_cons)
      rwa [← List.append_assoc (coreLine toks), ← List.append_assoc y] at h
    have hlower : (toLower (y ++ (coreLine toks ++ x))).length =
        (y ++ (coreLine toks ++ x)).length := by
      have hR := piecewise_length
      have hwords := hR.of_equation h hsized.1 hsized.2
      have hcore := hR.of_coreLine fun t ht => ⟨(h.trimmed t ht).fresh, hwords t ht⟩
      have hfresh := hx.fresh_append fresh_nil
      rw [List.append_nil] at hfresh
      exact hR.append_fresh (hR.of_white hy) (hR.append_fresh hcore (hR.of_white hx) hfresh)
        ((trimmed_coreLine h.trimmed h.ne_nil).fresh.append hfresh)
    refine ⟨(y ++ (coreLine toks ++ x)) :: parts, ?_, ?_⟩
    · rw [htext, splitAnd_link hlower hno hword, hparts]
      rfl
    · rw [List.filterMap_cons_some (h.condition_eq hbare hy hx), hread]

/-! ### The stages of a text -/

theorem fresh_oneLine {toks : List Token} (h : ∀ t ∈ toks, Fresh t.text) {x : GoString}
    (hx : Fresh x) : Fresh (oneLine toks ++ x) := by
  induction toks with
  | nil => exact hx
  | cons t toks ih =>
    obtain ⟨ht, hrest⟩ := List.forall_mem_cons.mp h
    rw [oneLine_cons, List.append_assoc, List.append_assoc]
    exact t.gap.white.fresh_append (ht.append (ih hrest))

theorem White.fresh {g : GoString} (hg : White g) : Fresh g := by
  have hfresh := hg.fresh_append fresh_nil
  rwa [List.append_nil] at hfresh

theorem bar_notMem_oneLine {toks : List Token} (h : ∀ t ∈ toks, bar ∉ t.text) :
    bar ∉ oneLine toks := by
  induction toks with
  | nil => exact List.not_mem_nil
  | cons t toks ih =>
    obtain ⟨ht, hrest⟩ := List.forall_mem_cons.mp h
    rw [oneLine_cons, List.mem_append, List.mem_append, not_or, not_or]
    exact ⟨t.gap.white.notMem (.inl (by decide)), ht, ih hrest⟩

/-- What a filter stage has behind its word, trimmed. -/
theorem trimSpace_words {toks : List Token} (h : ∀ t ∈ toks, Trimmed t.text) {y z : GoString}
    (hy : White y) (hz : White z) :
    trimSpace (trimEnd (y ++ (oneLine toks ++ z))) = coreLine toks := by
  cases toks with
  | nil =>
    rw [show oneLine [] = [] from rfl, List.nil_append, (hy.append hz).trimEnd_eq]
    rfl
  | cons t toks =>
    have hcore := trimmed_coreLine h (List.cons_ne_nil t toks)
    have htext : y ++ (oneLine (t :: toks) ++ z) =
        (y ++ t.gap.oneLine) ++ coreLine (t :: toks) ++ z := by
      rw [oneLine_cons, coreLine]
      simp
    have htrim := hcore.trimSpace_eq (hy.append t.gap.white) .nil
    rw [List.append_nil] at htrim
    rw [htext, trimEnd_append_fresh hcore _ _ z le_rfl hz.fresh, hz.trimEnd_eq, List.append_nil,
      htrim]

/-- A stage that begins with the word `filter`. -/
theorem isFilter_word {w : GoString} (hw : w.map lowerByte = str "filter") (u : GoString) :
    IsFilter (w ++ u) ∧ filterText (w ++ u) = trimSpace u := by
  have hletters := letters_of_word hw filter_mem_stageWords
  have hlen : w.length = 6 := by
    rw [← List.length_map (f := lowerByte), hw]
    rfl
  constructor
  · rw [IsFilter, toLower_append (fun b hb => by have := (hletters b hb).2; omega), hw, hasPrefix,
      List.isPrefixOf_iff_prefix]
    exact List.prefix_append _ _
  · rw [filterText, List.drop_left' hlen]

theorem not_isFilter_word {w kw : GoString} (hkw : kw ∈ [str "fields", str "sort", str "limit"])
    (hw : w.map lowerByte = kw) (u : GoString) : ¬IsFilter (w ++ u) := by
  obtain ⟨hmem, hne, hlen⟩ := ne_filter kw hkw
  have hletters := letters_of_word hw hmem
  rw [IsFilter, toLower_append (fun b hb => by have := (hletters b hb).2; omega), hw, hasPrefix,
    List.isPrefixOf_iff_prefix]
  intro hpre
  refine hne ?_
  have htake := congrArg (List.take 3) (List.prefix_iff_eq_take.mp hpre)
  rw [List.take_take, List.take_append_of_le_length (le_trans (min_le_left _ _) hlen)] at htake
  exact htake.symm

/-- What is read of the expressions of filters, on one line each. -/
def readConditions (cs : List (List Token × List (GoString × GoString))) :
    List (GoString × GoString) :=
  cs.flatMap fun c => (pieces (coreLine c.1)).filterMap condition

/-- The words of the filters stay, and begin no stage. -/
def StayIn (cs : List (List Token × List (GoString × GoString))) : Prop :=
  ∀ c ∈ cs, ∀ t ∈ c.1, Stays t.text ∧ bar ∉ t.text

theorem bar_notMem_stageText {word : Token} {toks : List Token} (hword : bar ∉ word.text)
    (htoks : ∀ t ∈ toks, Stays t.text ∧ bar ∉ t.text) :
    bar ∉ word.gap.oneLine ++ (word.text ++ oneLine toks) := by
  rw [List.mem_append, List.mem_append, not_or, not_or]
  exact ⟨word.gap.white.notMem (.inl (by decide)), hword,
    bar_notMem_oneLine fun t ht => (htoks t ht).2⟩

/-- A stage begins with its word, and ends where the next one is split off. -/
theorem trimSpace_stageText {word : Token} {toks : List Token} (hword : Trimmed word.text)
    (htoks : ∀ t ∈ toks, Stays t.text ∧ bar ∉ t.text) {z : GoString} (hz : White z) :
    trimSpace (word.gap.oneLine ++ (word.text ++ oneLine toks) ++ z) =
      word.text ++ trimEnd (oneLine toks ++ z) := by
  rw [List.append_assoc, List.append_assoc]
  exact hword.trimSpace_append word.gap.white
    (fresh_oneLine (fun t ht => (htoks t ht).1.trimmed.fresh) hz.fresh)

theorem split_stageText {a : GoString} (ha : bar ∉ a) (g : Gap) (word : Token)
    (toks rest : List Token) (x : GoString) :
    split (a ++ (oneLine (⟨g, [bar]⟩ :: word :: (toks ++ rest)) ++ x)) [bar] = (a ++ g.oneLine) ::
      split (word.gap.oneLine ++ (word.text ++ oneLine toks) ++ (oneLine rest ++ x)) [bar] := by
  have ha' : bar ∉ a ++ g.oneLine := by
    rw [List.mem_append, not_or]
    exact ⟨ha, g.white.notMem (.inl (by decide))⟩
  have htext : a ++ (oneLine (⟨g, [bar]⟩ :: word :: (toks ++ rest)) ++ x) =
      (a ++ g.oneLine) ++ bar ::
        (word.gap.oneLine ++ (word.text ++ oneLine toks) ++ (oneLine rest ++ x)) := by
    simp
  rw [htext, split_append_cons ha']

/-- The words of a stage without conditions. -/
theorem stays_otherWord {w kw : GoString} (hkw : kw ∈ [str "fields", str "sort", str "limit"])
    (hw : w.map lowerByte = kw) : Stays w ∧ bar ∉ w := stays_of_word hw (ne_filter kw hkw).1

/-- **The stages behind a filter** are split off it, and each is read on its own. -/
theorem IsStages.split_eq {rest : List Token} {cs : List (List Token × List (GoString × GoString))}
    (h : IsStages rest cs) (hstay : StayIn cs) {x : GoString} (hx : White x) :
    ∀ {a : GoString}, bar ∉ a → ∃ z parts, White z ∧
      split (a ++ (oneLine rest ++ x)) [bar] = (a ++ z) :: parts ∧
      (parts.map trimSpace).flatMap stageConditions = readConditions cs ∧
      ((∀ part ∈ parts.map trimSpace, IsFilter part → CutsInside (filterText part)) ↔
        ∀ c ∈ cs, CutsInside (coreLine c.1)) := by
  induction h with
  | nil =>
    intro a ha
    have hbar : bar ∉ a ++ x := by
      rw [List.mem_append, not_or]
      exact ⟨ha, hx.notMem (.inl (by decide))⟩
    refine ⟨x, [], hx, split_of_notMem hbar, rfl, ?_⟩
    simp
  | @filter toks rest word kvs cs g hword hconj hrest ih =>
    intro a ha
    obtain ⟨hwords, hothers⟩ := List.forall_mem_cons.mp hstay
    obtain ⟨hstays, hnobar⟩ := stays_of_word hword filter_mem_stageWords
    obtain ⟨z, parts, hz, hsplit, hconds, hcuts⟩ := ih hothers (bar_notMem_stageText hnobar hwords)
    have hstage := trimSpace_stageText hstays.trimmed hwords hz
    obtain ⟨hfilter, hexpr⟩ := isFilter_word hword (trimEnd (oneLine toks ++ z))
    have hcore := trimSpace_words (fun t ht => (hwords t ht).1.trimmed) .nil hz
    rw [List.nil_append] at hcore
    rw [hcore] at hexpr
    refine ⟨g.oneLine, _ :: parts, g.white, by rw [split_stageText ha, hsplit], ?_, ?_⟩
    · rw [List.map_cons, List.flatMap_cons, hconds, hstage, stageConditions_of_filter hfilter, hexpr,
        readConditions, readConditions, List.flatMap_cons]
    · rw [List.map_cons, List.forall_mem_cons, List.forall_mem_cons, hcuts, hstage, hexpr]
      exact and_congr_left fun _ => ⟨fun h => h hfilter, fun h _ => h⟩
  | @other toks rest word kw cs g hkw hword htoks hrest ih =>
    intro a ha
    obtain ⟨hstays, hnobar⟩ := stays_otherWord hkw hword
    obtain ⟨z, parts, hz, hsplit, hconds, hcuts⟩ := ih hstay (bar_notMem_stageText hnobar htoks)
    have hstage := trimSpace_stageText hstays.trimmed htoks hz
    have hfilter := not_isFilter_word hkw hword (trimEnd (oneLine toks ++ z))
    refine ⟨g.oneLine, _ :: parts, g.white, by rw [split_stageText ha, hsplit], ?_, ?_⟩
    · rw [List.map_cons, List.flatMap_cons, hconds, hstage, stageConditions_of_not hfilter]
      rfl
    · rw [List.map_cons, List.forall_mem_cons, hcuts, hstage]
      exact ⟨fun h => h.2, fun h => ⟨fun hf => absurd hf hfilter, h⟩⟩

theorem IsStages.stays {rest : List Token} {cs : List (List Token × List (GoString × GoString))}
    (h : IsStages rest cs) (hstay : StayIn cs) : ∀ t ∈ rest, Stays t.text := by
  induction h with
  | nil => exact fun t ht => absurd ht List.not_mem_nil
  | filter g hword hconj hrest ih =>
    obtain ⟨hwords, hothers⟩ := List.forall_mem_cons.mp hstay
    exact List.forall_mem_cons.mpr ⟨stays_bar, List.forall_mem_cons.mpr
      ⟨(stays_of_word hword filter_mem_stageWords).1,
      List.forall_mem_append.mpr ⟨fun t ht => (hwords t ht).1, ih hothers⟩⟩⟩
  | other g hkw hword htoks hrest ih =>
    exact List.forall_mem_cons.mpr ⟨stays_bar, List.forall_mem_cons.mpr ⟨(stays_otherWord hkw hword).1,
      List.forall_mem_append.mpr ⟨fun t ht => (htoks t ht).1, ih hstay⟩⟩⟩

theorem IsStages.conjunctions {rest : List Token}
    {cs : List (List Token × List (GoString × GoString))} (h : IsStages rest cs) :
    ∀ c ∈ cs, IsConjunction c.1 c.2 := by
  induction h with
  | nil => exact fun c hc => absurd hc List.not_mem_nil
  | filter g hword hconj hrest ih => exact List.forall_mem_cons.mpr ⟨hconj, ih⟩
  | other g hkw hword htoks hrest ih => exact ih

/-! ### A text that is written as equations, in a query -/

/-- The query that a text makes behind the word `filter`. -/
def endpointQuery (text : GoString) : GoString :=
  endpointOpening ++ (str "filter" ++ 0x20 :: text)

theorem index_dataset :
    index (str "dataset") (toLower (str "dataset = xsiam_endpoint")) = some 0 := by
  decide

theorem datasetInside_open {q : GoString} (h : firstStage q = str "dataset = xsiam_endpoint") :
    DatasetInside q := by
  rw [DatasetInside, h]
  intro idx hidx
  obtain rfl : 0 = idx := Option.some.inj (index_dataset.symm.trans hidx)
  decide

/-- **What a text that is laid out as filters makes of a query.** -/
theorem queryConditions_laidOut {text : GoString} {toks rest : List Token}
    {kvs : List (GoString × GoString)} {cs : List (List Token × List (GoString × GoString))}
    (hlaid : LaidOut text (toks ++ rest)) (hstages : IsStages rest cs)
    (hstay : StayIn ((toks, kvs) :: cs)) :
    queryConditions (endpointQuery text) = readConditions ((toks, kvs) :: cs) ∧
      ((∃ p, parseXQLForNgx (endpointQuery text) = some p) ↔
        ∀ c ∈ (toks, kvs) :: cs, CutsInside (coreLine c.1)) := by
  obtain ⟨hwords, hothers⟩ := List.forall_mem_cons.mp hstay
  have hbar : bar ∉ str "filter" := by decide
  obtain ⟨x, hx, htail⟩ := hlaid.openTail_eq (List.forall_mem_append.mpr
    ⟨fun t ht => (hwords t ht).1, hstages.stays hothers⟩)
  obtain ⟨y, hy, hopen⟩ := openTail_space text
  have hnobar : bar ∉ y ++ oneLine toks := by
    rw [List.mem_append, not_or]
    exact ⟨hy.notMem (.inl (by decide)), bar_notMem_oneLine fun t ht => (hwords t ht).2⟩
  obtain ⟨z, parts, hz, hsplit, hconds, hcuts⟩ := hstages.split_eq hothers hx hnobar
  have hopen' : openTail (0x20 :: text) = y ++ oneLine toks ++ (oneLine rest ++ x) := by
    rw [hopen, htail, oneLine_append]
    simp
  have hlater : laterStages (endpointQuery text) =
      (str "filter" ++ trimEnd (y ++ oneLine toks ++ z)) :: parts.map trimSpace := by
    rw [split, List.cons.injEq] at hsplit
    rw [endpointQuery, laterStages_open firm_filter hbar, hopen', hsplit.1, hsplit.2]
  have hword : (str "filter").map lowerByte = str "filter" := by decide
  obtain ⟨hfilter, hexpr⟩ := isFilter_word hword (trimEnd (y ++ oneLine toks ++ z))
  rw [List.append_assoc, trimSpace_words (fun t ht => (hwords t ht).1.trimmed) hy hz,
    ← List.append_assoc] at hexpr
  constructor
  · rw [queryConditions, hlater, List.flatMap_cons, hconds, stageConditions_of_filter hfilter, hexpr,
      readConditions, readConditions, List.flatMap_cons]
  · have hinside := datasetInside_open (firstStage_open firm_filter hbar (0x20 :: text))
    rw [parseXQLForNgx_returns_iff, FiltersInside, hlater, List.forall_mem_cons,
      List.forall_mem_cons, hcuts, hexpr]
    exact ⟨fun h => ⟨h.2.1 hfilter, h.2.2⟩, fun h => ⟨hinside, fun _ => h.1, h.2⟩⟩

theorem cutsInside_of_splitAnd {s : GoString} {parts : List GoString}
    (h : splitAnd s = some parts) : CutsInside s ∧ pieces s = parts := by
  rw [splitAnd_eq] at h
  split_ifs at h with hinside
  exact ⟨hinside, Option.some.inj h⟩

/-- **A text is read as the equations that are written in it**, if nothing in them is taken for
grammar. -/
theorem queryConditions_written {text : GoString} {kvs : List (GoString × GoString)}
    (h : Written text kvs) (hplain : ∀ kv ∈ kvs, PlainEquation kv) :
    (∃ p, parseXQLForNgx (endpointQuery text) = some p) ∧
      queryConditions (endpointQuery text) = kvs := by
  obtain ⟨toks, kvs', rest, cs, hconj, hstages, hlaid, rfl⟩ := h
  have hall : ∀ c ∈ (toks, kvs') :: cs, IsConjunction c.1 c.2 :=
    List.forall_mem_cons.mpr ⟨hconj, hstages.conjunctions⟩
  have hplain' : ∀ c ∈ (toks, kvs') :: cs, ∀ kv ∈ c.2, PlainEquation kv := fun c hc kv hkv =>
    hplain kv (List.mem_flatMap.mpr ⟨c, hc, hkv⟩)
  have hstay : StayIn ((toks, kvs') :: cs) := fun c hc =>
    (hall c hc).stays fun kv hkv => ⟨(hplain' c hc kv hkv).field, (hplain' c hc kv hkv).value⟩
  have hread : ∀ c ∈ (toks, kvs') :: cs, CutsInside (coreLine c.1) ∧
      (pieces (coreLine c.1)).filterMap condition = c.2 := by
    intro c hc
    obtain ⟨parts, hparts, hmap⟩ := (hall c hc).splits
      (fun kv hkv => ⟨(hplain' c hc kv hkv).noAnd, (hplain' c hc kv hkv).bare⟩) .nil
    rw [List.nil_append] at hparts
    obtain ⟨hinside, hpieces⟩ := cutsInside_of_splitAnd hparts
    exact ⟨hinside, by rw [hpieces, hmap]⟩
  obtain ⟨hconds, hparse⟩ := queryConditions_laidOut hlaid hstages hstay
  refine ⟨hparse.mpr fun c hc => (hread c hc).1, ?_⟩
  rw [hconds, readConditions]
  exact List.flatMap_congr fun c hc => (hread c hc).2

/-- What is read as an equation has no quotes at the ends of its value. -/
theorem bare_of_condition {piece : GoString} {kv : GoString × GoString}
    (h : condition piece = some kv) : Bare kv.2 := by
  rw [condition] at h
  cases hidx : index (str "=") (trimSpace piece) with
  | none =>
    rw [hidx] at h
    cases h
  | some idx =>
    simp only [hidx] at h
    split_ifs at h
    obtain rfl := Option.some.inj h
    exact bare_trim _

/-- Lower-casing that changes ASCII letters only moves no separator. -/
theorem aligned_of_lower {s : GoString} (h : toLower s = s.map lowerByte) : Aligned s := by
  intro o ho
  rw [h] at ho
  rw [SeparatorAt, List.map_drop]
  exact (prefix_of_mem_cutsFrom ho).2

/-- Outside ASCII an equation has no letters that are not lower case. -/
def LowerCase (kv : GoString × GoString) : Prop :=
  toLower kv.1 = kv.1.map lowerByte ∧ toLower kv.2 = kv.2.map lowerByte

instance (kv : GoString × GoString) : Decidable (LowerCase kv) := inferInstanceAs (Decidable (_ ∧ _))

/-- The texts of a conjunction that is lower case outside ASCII. -/
theorem IsConjunction.lowerCase {toks : List Token} {kvs : List (GoString × GoString)}
    (h : IsConjunction toks kvs) (hlower : ∀ kv ∈ kvs, LowerCase kv) :
    ∀ t ∈ toks, Fresh t.text ∧ toLower t.text = t.text.map lowerByte := by
  have hequation : ∀ {toks : List Token} {kv : GoString × GoString}, IsEquation toks kv →
      LowerCase kv → ∀ t ∈ toks, Fresh t.text ∧ toLower t.text = t.text.map lowerByte :=
    fun h hkv t ht =>
      ⟨(h.trimmed t ht).fresh, piecewise_lowerByte.of_equation h hkv.1 hkv.2 t ht⟩
  induction h with
  | nil => exact fun t ht => absurd ht List.not_mem_nil
  | one h => exact hequation h (hlower _ List.mem_cons_self)
  | @and toks rest word first kv kvs h hsized hword hbefore hbehind hrest ih =>
    obtain ⟨hkv, hothers⟩ := List.forall_mem_cons.mp hlower
    have hletters := letters_of_word hword and_mem_stageWords
    have hascii : ∀ b ∈ word.text, b.toNat < 0x80 := fun b hb => by
      have := (hletters b hb).2
      omega
    exact List.forall_mem_append.mpr ⟨hequation h hkv, List.forall_mem_cons.mpr
      ⟨⟨(stays_of_word hword and_mem_stageWords).1.trimmed.fresh, toLower_of_ascii hascii⟩,
        ih hothers⟩⟩

/-- **And if a text is read as the equations that are written in it, nothing in them is taken for
grammar.** -/
theorem plain_of_read {text : GoString} {kvs : List (GoString × GoString)} (h : Written text kvs)
    (hlower : ∀ kv ∈ kvs, LowerCase kv)
    (hread : ∀ kv ∈ kvs, kv ∈ queryConditions (endpointQuery text)) :
    ∀ kv ∈ kvs, PlainEquation kv := by
  obtain ⟨toks, kvs', rest, cs, hconj, hstages, hlaid, rfl⟩ := h
  have hall : ∀ c ∈ (toks, kvs') :: cs, IsConjunction c.1 c.2 :=
    List.forall_mem_cons.mpr ⟨hconj, hstages.conjunctions⟩
  have hmem : ∀ c ∈ (toks, kvs') :: cs, ∀ kv ∈ c.2,
      kv ∈ ((toks, kvs') :: cs).flatMap Prod.snd := fun c hc kv hkv =>
    List.mem_flatMap.mpr ⟨c, hc, hkv⟩
  have hone : ∀ kv ∈ ((toks, kvs') :: cs).flatMap Prod.snd, OneStage kv.1 ∧ OneStage kv.2 :=
    fun kv hkv => oneStage_of_mem_queryConditions (hread kv hkv)
  have hstay : StayIn ((toks, kvs') :: cs) := fun c hc =>
    (hall c hc).stays fun kv hkv => hone kv (hmem c hc kv hkv)
  obtain ⟨hconds, -⟩ := queryConditions_laidOut hlaid hstages hstay
  intro kv hkv
  have hfound := hread kv hkv
  rw [hconds] at hfound
  obtain ⟨c, hc, hin⟩ := List.mem_flatMap.mp hfound
  obtain ⟨piece, hpiece, hcond⟩ := List.mem_filterMap.mp hin
  -- the expression is split without a loss, so no piece of it has a separator
  have haligned : Aligned (coreLine c.1) := aligned_of_lower (piecewise_lowerByte.of_coreLine
    ((hall c hc).lowerCase fun kv hkv => hlower kv (hmem c hc kv hkv)))
  obtain ⟨parts, hparts, -, hno⟩ := (splitAnd_lossless_iff (coreLine c.1)).mpr haligned
  rw [(cutsInside_of_splitAnd hparts).2] at hpiece
  refine ⟨(hone kv hkv).1, (hone kv hkv).2, fun hand => hno piece hpiece (hand.trans ?_),
    bare_of_condition hcond⟩
  exact (infix_of_condition hcond).2.map lowerByte

end Query

end Xsiam
