import Mathlib.Data.List.Basic

/-!
# Quoted text

A text with quoted strings in it: a quote opens a string, the next quote that is not escaped closes
it, and an escape makes the symbol behind it an ordinary one. Two things are read from such a text:
what a string holds (`Quoting.readBody`), and the pieces between the bars that stand in no string
(`Quoting.cut`).

A value can be pasted between two quotes, and is then read as itself, exactly when no quote in it is
unescaped and it does not end in an open escape (`Quoting.readBody_eq_some`).
-/

namespace Quoting

universe u

variable {α : Type u} [DecidableEq α] (quote escape bar : α)

/-! ### What a string holds -/

/-- A value that can stand between two quotes. -/
inductive Quotable : List α → Prop
  | nil : Quotable []
  | escaped (c : α) {s : List α} : Quotable s → Quotable (escape :: c :: s)
  | plain {b : α} {s : List α} : b ≠ quote → b ≠ escape → Quotable s → Quotable (b :: s)

/-- What stands before the first unescaped quote, and what is behind it. -/
def readBody : List α → Option (List α × List α)
  | [] => none
  | b :: bs =>
    if b = quote then some ([], bs)
    else if b = escape then
      match bs with
      | [] => none
      | c :: cs => (readBody cs).map fun p => (b :: c :: p.1, p.2)
    else (readBody bs).map fun p => (b :: p.1, p.2)

variable {quote escape bar}

theorem readBody_quote (bs : List α) : readBody quote escape (quote :: bs) = some ([], bs) := by
  rw [readBody.eq_def]
  exact if_pos rfl

theorem readBody_escape (hne : quote ≠ escape) (c : α) (cs : List α) :
    readBody quote escape (escape :: c :: cs) =
      (readBody quote escape cs).map fun p => (escape :: c :: p.1, p.2) := by
  rw [readBody.eq_def]
  exact (if_neg hne.symm).trans (if_pos rfl)

theorem readBody_plain {b : α} (hq : b ≠ quote) (he : b ≠ escape) (bs : List α) :
    readBody quote escape (b :: bs) =
      (readBody quote escape bs).map fun p => (b :: p.1, p.2) := by
  rw [readBody.eq_def]
  exact (if_neg hq).trans (if_neg he)

theorem readBody_of_quotable (hne : quote ≠ escape) {v : List α} (hv : Quotable quote escape v)
    (rest : List α) : readBody quote escape (v ++ quote :: rest) = some (v, rest) := by
  induction hv with
  | nil => exact readBody_quote rest
  | escaped c _ ih =>
    rw [List.cons_append, List.cons_append, readBody_escape hne, ih]
    rfl
  | plain hq he _ ih =>
    rw [List.cons_append, readBody_plain hq he, ih]
    rfl

theorem quotable_of_readBody : ∀ {s v rest : List α}, readBody quote escape s = some (v, rest) →
    s = v ++ quote :: rest ∧ Quotable quote escape v
  | [], _, _, h => by cases h
  | [b], v, rest, h => by
    rw [readBody] at h
    split_ifs at h with hq he
    · obtain ⟨rfl, rfl⟩ := Prod.mk.inj (Option.some.inj h)
      exact ⟨by rw [hq]; rfl, .nil⟩
    · cases h
  | b :: c :: cs, v, rest, h => by
    rw [readBody] at h
    split_ifs at h with hq he
    · obtain ⟨rfl, rfl⟩ := Prod.mk.inj (Option.some.inj h)
      exact ⟨by rw [hq]; rfl, .nil⟩
    · -- an escape: the symbol behind it is passed over
      obtain ⟨⟨w, rest'⟩, hw, heq⟩ := Option.map_eq_some_iff.mp h
      obtain ⟨rfl, rfl⟩ := Prod.mk.inj heq
      obtain ⟨hcs, hquot⟩ := quotable_of_readBody hw
      exact ⟨by rw [hcs]; rfl, by rw [he]; exact .escaped c hquot⟩
    · obtain ⟨⟨w, rest'⟩, hw, heq⟩ := Option.map_eq_some_iff.mp h
      obtain ⟨rfl, rfl⟩ := Prod.mk.inj heq
      obtain ⟨hcs, hquot⟩ := quotable_of_readBody hw
      exact ⟨by rw [hcs]; rfl, .plain hq he hquot⟩

/-- **What is read up to a quote is a quotable value, and every quotable value is read.** -/
theorem readBody_eq_some (hne : quote ≠ escape) {s v rest : List α} :
    readBody quote escape s = some (v, rest) ↔
      s = v ++ quote :: rest ∧ Quotable quote escape v := by
  constructor
  · exact quotable_of_readBody
  · rintro ⟨rfl, hv⟩
    exact readBody_of_quotable hne hv rest

theorem quotable_iff (hne : quote ≠ escape) (v : List α) :
    readBody quote escape (v ++ [quote]) = some (v, []) ↔ Quotable quote escape v := by
  rw [readBody_eq_some hne]
  exact and_iff_right rfl

/-! ### Pieces between bars -/

/-- Where a reader stands: outside of strings, in one, or behind an escape in one. -/
inductive Place where
  | outside
  | inside
  | escaped
deriving DecidableEq

variable (quote escape bar)

/-- Where a symbol takes the reader. -/
def Place.step : Place → α → Place
  | .outside, b => if b = quote then .inside else .outside
  | .inside, b => if b = escape then .escaped else if b = quote then .outside else .inside
  | .escaped, _ => .inside

/-- Where a text takes the reader. -/
def Place.run (p : Place) (s : List α) : Place := s.foldl (Place.step quote escape) p

/-- The pieces of a text between the bars outside of its strings: the first one, and the others. -/
def cut : Place → List α → List α × List (List α)
  | _, [] => ([], [])
  | p, b :: bs =>
    if p = .outside ∧ b = bar then ([], (cut .outside bs).1 :: (cut .outside bs).2)
    else (b :: (cut (p.step quote escape b) bs).1, (cut (p.step quote escape b) bs).2)

variable {quote escape bar}

/-- Text without a bar belongs to the piece it starts in. -/
theorem cut_append {s : List α} (hs : bar ∉ s) (t : List α) : ∀ p : Place,
    cut quote escape bar p (s ++ t) =
      (s ++ (cut quote escape bar (p.run quote escape s) t).1,
        (cut quote escape bar (p.run quote escape s) t).2) := by
  induction s with
  | nil => intro p; rfl
  | cons b s ih =>
    intro p
    obtain ⟨hb, hs⟩ := List.ne_and_not_mem_of_not_mem_cons hs
    rw [List.cons_append, cut, if_neg fun h => hb h.2.symm, ih hs]
    rfl

/-- Whatever strings are left open, a piece behind the first one starts where a part did. -/
theorem cut_parts {lead : List α} (hlead : bar ∉ lead) (parts : List (List α))
    (hparts : ∀ a ∈ parts, bar ∉ a) : ∀ p : Place,
    ∀ r ∈ (cut quote escape bar p (parts.flatMap fun a => lead ++ bar :: a)).2,
      ∃ a ∈ parts, a <+: r := by
  induction parts with
  | nil => intro p r hr; simp [cut] at hr
  | cons a parts ih =>
    intro p r hr
    obtain ⟨ha, hparts⟩ := List.forall_mem_cons.mp hparts
    have hrest : ∀ p : Place,
        r ∈ (cut quote escape bar p (parts.flatMap fun a => lead ++ bar :: a)).2 →
          ∃ a' ∈ a :: parts, a' <+: r := fun p h =>
      let ⟨a', ha', hpre⟩ := ih hparts p r h
      ⟨a', List.mem_cons_of_mem a ha', hpre⟩
    rw [List.flatMap_cons, List.append_assoc, cut_append hlead, List.cons_append, cut] at hr
    split_ifs at hr
    · -- the bar cuts, and the part begins a piece
      rw [cut_append ha] at hr
      rcases List.mem_cons.mp hr with rfl | hr
      · exact ⟨a, List.mem_cons_self, List.prefix_append _ _⟩
      · exact hrest _ hr
    · rw [cut_append ha] at hr
      exact hrest _ hr

theorem Place.run_append (p : Place) (s t : List α) :
    p.run quote escape (s ++ t) = (p.run quote escape s).run quote escape t :=
  List.foldl_append

/-- Outside of strings, text without a quote stays outside. -/
theorem Place.run_outside {s : List α} (hs : quote ∉ s) :
    Place.run quote escape .outside s = .outside := by
  induction s with
  | nil => rfl
  | cons b s ih =>
    obtain ⟨hb, hs⟩ := List.ne_and_not_mem_of_not_mem_cons hs
    rw [Place.run, List.foldl_cons, Place.step, if_neg fun h => hb h.symm]
    exact ih hs

/-- A quotable value stays in its string. -/
theorem Place.run_inside {s : List α} (h : Quotable quote escape s) :
    Place.run quote escape .inside s = .inside := by
  induction h with
  | nil => rfl
  | escaped c _ ih =>
    rw [Place.run, List.foldl_cons, List.foldl_cons, Place.step, if_pos rfl, Place.step]
    exact ih
  | plain hq he _ ih =>
    rw [Place.run, List.foldl_cons, Place.step, if_neg he, if_neg hq]
    exact ih

/-- A string that a quotable value stands in is closed behind it. -/
theorem Place.run_quoted (hne : quote ≠ escape) {s : List α} (h : Quotable quote escape s) :
    Place.run quote escape .outside (quote :: (s ++ [quote])) = .outside := by
  have hopen : Place.step quote escape .outside quote = .inside := if_pos rfl
  have hclose : Place.step quote escape .inside quote = .outside := by
    rw [Place.step, if_neg hne, if_pos rfl]
  rw [Place.run, List.foldl_cons, hopen, List.foldl_append]
  change Place.step quote escape (Place.run quote escape .inside s) quote = .outside
  rw [Place.run_inside h, hclose]

end Quoting
