import Xsiam.Query.Written
import Xsiam.Threat.Service

/-!
# What the query of a rule means

A detection rule says which events it is about, and `RuleToSPL2` writes that as a query: a list of
alternatives in parentheses, a list of values behind an `in`, a comparison. The grammar the query is
read by knows none of these, only equations with `and` between them, so what is read is a
conjunction of equations (`Xsiam.Threat.Satisfies`) and whatever is not one is left out or taken
for a part of a field or a value.

A rule keeps its meaning when it comes down to equations and nothing in them is taken for grammar
(`Xsiam.Threat.Kept`), and for ordinary rules only then (`Xsiam.Threat.meaning_kept`): a rule with
a sequence is read as an equation on a field whose name begins with a parenthesis, a list of values
as no equation at all, and no equation says that a number is exceeded. A pattern may be any text; it
can be written as equations, on several lines and with comments (`Xsiam.Query.Written`), and what it
means is not for the query to say (`Xsiam.Threat.Reading`).
-/

namespace Xsiam

namespace Threat

open Go Etl Separator Query

/-! ### What rules mean -/

/-- An event, by the texts of its fields. -/
abbrev Event := GoString → Option GoString

/-- An event meets conditions, each an equation. -/
def Satisfies (ev : Event) (conds : List (GoString × GoString)) : Prop :=
  ∀ c ∈ conds, ev c.1 = some c.2

/-- The kinds of rules with a definition of their own. -/
inductive Kind where
  | bioc
  | ioc
  | ueba

/-- The type a rule of a kind has. -/
def Kind.ruleType : Kind → GoString
  | .bioc => str "bioc"
  | .ioc => str "ioc"
  | .ueba => str "ueba"

/-- What the program leaves to others: what an expression says that a rule has as a text, and which
texts of a metric exceed a threshold. -/
structure Reading where
  pattern : GoString → Event → Prop
  exceeds : GoString → Float64 → Prop

/-- The indicator that the values of a rule are for. -/
def RuleDefinition.indicator (d : RuleDefinition) : GoString :=
  if d.iocType = [] then str "indicator_value" else d.iocType

/-- The metric of a rule. -/
def RuleDefinition.metricName (d : RuleDefinition) : GoString :=
  if d.metric = [] then str "event_count" else d.metric

/-- An event is what a step of a sequence describes. -/
def BIOCEvent.Describes (step : BIOCEvent) (ev : Event) : Prop :=
  ev (str "event_type") = some step.eventType ∧
    ∀ k v, step.conditions[k]? = some v → ev k = some v

/-- **The events that a rule is about.** -/
def Detects (rd : Reading) (name : GoString) (d : RuleDefinition) : Kind → Event → Prop
  | .bioc, ev =>
    if d.sequence = [] then ev (str "rule_name") = some name
    else ∃ step ∈ d.sequence, step.Describes ev
  | .ioc, ev =>
    if d.iocValues = [] then
      if d.iocPattern = [] then ev (str "ioc_match") = some (str "true")
      else rd.pattern d.iocPattern ev
    else ∃ v ∈ d.iocValues, ev d.indicator = some v
  | .ueba, ev => ∃ text, ev d.metricName = some text ∧ rd.exceeds text d.threshold

/-- A query reads as what it should say. -/
def ReadsAs (q : GoString) (meaning : Event → Prop) : Prop :=
  ∃ p, parseXQLForNgx q = some p ∧ ∀ ev, Satisfies ev p.filters ↔ meaning ev

/-- **A rule keeps its meaning** in each of its queries. -/
def KeepsMeaning (lib : StdLib) (rd : Reading) (kind : Kind) (name : GoString)
    (d : RuleDefinition) : Prop :=
  ∀ q, RuleQuery lib ⟨name, kind.ruleType, d⟩ q → ReadsAs q (Detects rd name d kind)

/-! ### Conjunctions of equations -/

/-- The event with one field. -/
def only (f v : GoString) : Event := fun k => if k = f then some v else none

@[simp] theorem only_self (f v : GoString) : only f v f = some v := if_pos rfl

theorem satisfies_only_iff {f v : GoString} {conds : List (GoString × GoString)} :
    Satisfies (only f v) conds ↔ ∀ c ∈ conds, c = (f, v) := by
  refine forall₂_congr fun c _ => ?_
  obtain ⟨k, w⟩ := c
  rw [only, Prod.mk.injEq]
  by_cases hk : k = f
  · rw [if_pos hk, Option.some.injEq]
    exact ⟨fun hw => ⟨hk, hw.symm⟩, fun h => h.2.symm⟩
  · rw [if_neg hk]
    exact ⟨fun h => (nomatch h), fun h => absurd h.1 hk⟩

/-- Conditions that say what one equation says are that equation. -/
theorem eq_of_satisfies_iff {f v : GoString} {conds : List (GoString × GoString)}
    (h : ∀ ev : Event, Satisfies ev conds ↔ ev f = some v) :
    conds ≠ [] ∧ ∀ c ∈ conds, c = (f, v) := by
  constructor
  · rintro rfl
    have hnone := (h fun _ => none).mp fun c hc => nomatch hc
    cases hnone
  · exact satisfies_only_iff.mp ((h (only f v)).mpr (only_self f v))

theorem satisfies_singleton {ev : Event} {f v : GoString} :
    Satisfies ev [(f, v)] ↔ ev f = some v := List.forall_mem_singleton

/-- No conditions say that a field has one of several values. -/
theorem not_satisfies_iff_of_two {f a b : GoString} (hab : a ≠ b) {P : GoString → Prop} (ha : P a)
    (hb : P b) {conds : List (GoString × GoString)} :
    ¬∀ ev : Event, Satisfies ev conds ↔ ∃ v, ev f = some v ∧ P v := by
  intro h
  have hfst := satisfies_only_iff.mp ((h (only f a)).mpr ⟨a, only_self f a, ha⟩)
  have hsnd := satisfies_only_iff.mp ((h (only f b)).mpr ⟨b, only_self f b, hb⟩)
  rcases conds with _ | ⟨c, conds⟩
  · obtain ⟨v, hv, -⟩ := (h fun _ => none).mp fun c hc => nomatch hc
    cases hv
  · have heq := (hfst c List.mem_cons_self).symm.trans (hsnd c List.mem_cons_self)
    exact hab (Prod.mk.inj heq).2

/-- What a query reads as, by its conditions. -/
theorem readsAs_iff {q : GoString} {meaning : Event → Prop} :
    ReadsAs q meaning ↔ (∃ p, parseXQLForNgx q = some p) ∧
      ∀ ev, Satisfies ev (queryConditions q) ↔ meaning ev := by
  constructor
  · rintro ⟨p, hp, h⟩
    rw [parseXQLForNgx_filters hp] at h
    exact ⟨⟨p, hp⟩, h⟩
  · rintro ⟨⟨p, hp⟩, h⟩
    rw [← parseXQLForNgx_filters hp] at h
    exact ⟨p, hp, h⟩

/-! ### Rules that keep their meaning -/

/-- A name is read as it is between the quotes of a query: it stays in one stage, no `and` is read
in it, and it has no quotes at its ends. -/
structure ReadsAsName (name : GoString) : Prop where
  oneStage : OneStage name
  noAnd : index andSep (toLower (str "rule_name = \"" ++ (name ++ [0x22]))) = none
  quotes : trim name (str "\"'") = name

/-- A pattern means equations. -/
def Reading.Says (rd : Reading) (pattern : GoString) (kvs : List (GoString × GoString)) : Prop :=
  ∀ ev, rd.pattern pattern ev ↔ Satisfies ev kvs

/-- A pattern is read as it is meant: it is written as equations that it means, and nothing in them
is taken for grammar. -/
def ReadsAsPattern (rd : Reading) (pattern : GoString) : Prop :=
  ∃ kvs, Written pattern kvs ∧ (∀ kv ∈ kvs, PlainEquation kv) ∧ rd.Says pattern kvs

/-- A pattern that is written as what it means, equations that some event meets, without capitals
outside ASCII; or one that does not mean equations. -/
def OrdinaryPattern (rd : Reading) (pattern : GoString) : Prop :=
  (∃ kvs, Written pattern kvs ∧ (∀ kv ∈ kvs, LowerCase kv) ∧ (∃ ev, Satisfies ev kvs) ∧
    rd.Says pattern kvs) ∨ ∀ kvs, ¬rd.Says pattern kvs

/-- **The rules that keep their meaning**: without a sequence, by a name that is read as it is;
without values, and a pattern that is read as it is meant or none. -/
def Kept (rd : Reading) (name : GoString) (d : RuleDefinition) : Kind → Prop
  | .bioc => d.sequence = [] ∧ ReadsAsName name
  | .ioc => d.iocValues = [] ∧ (d.iocPattern = [] ∨ ReadsAsPattern rd d.iocPattern)
  | .ueba => False

/-- The rules of which it is said that no others do: some step of the sequence has no condition on
a a field that the query has already; the pattern is an ordinary one, and several values are not all
the same; the threshold can be exceeded by more or less. -/
def Ordinary (rd : Reading) (d : RuleDefinition) : Kind → Prop
  | .bioc => d.sequence ≠ [] → ∃ step ∈ d.sequence, step.conditions[str "event_type"]? = none ∧
      step.conditions[str "(event_type"]? = none
  | .ioc => (d.iocValues = [] → d.iocPattern ≠ [] → OrdinaryPattern rd d.iocPattern) ∧
      (1 < d.iocValues.length → ∃ a ∈ d.iocValues, ∃ b ∈ d.iocValues, a ≠ b)
  | .ueba => ∃ a b, a ≠ b ∧ rd.exceeds a d.threshold ∧ rd.exceeds b d.threshold

/-! ### Names -/

theorem trimEnd_quote (s : GoString) : trimEnd (s ++ [0x22]) = s ++ [0x22] :=
  trimEnd_append (b := 0x22) (by decide) s []

theorem trim_quote_cons (s : GoString) : trim (0x22 :: s) (str "\"'") = trim s (str "\"'") := by
  have hquote : (str "\"'").contains (0x22 : UInt8) = true := by decide
  rw [trim, List.dropWhile_cons_of_pos hquote]
  rfl

theorem trim_append_quote (s : GoString) :
    trim (s ++ [0x22]) (str "\"'") = trim s (str "\"'") := by
  have hquote : (str "\"'").contains (0x22 : UInt8) = true := by decide
  have hone : [(0x22 : UInt8)].dropWhile ((str "\"'").contains ·) = [] := by decide
  rw [trim, List.dropWhile_append, hone]
  split_ifs with hnil
  · rw [trim, List.isEmpty_iff.mp hnil]
  · rw [List.reverse_append, List.reverse_singleton, List.singleton_append,
      List.dropWhile_cons_of_pos hquote]
    rfl

theorem field_ruleName : Field (str "rule_name") where
  firm := ⟨⟨0x72, rfl, by decide⟩, ⟨0x65, rfl, by decide⟩, by decide, by decide⟩
  equals := by decide
  noBar := by decide
  guard := ⟨by decide +kernel, by decide +kernel⟩

/-- The query of a rule without a sequence. -/
theorem biocToSPL2_nil (order : ℕ → MapRange) (name : GoString) {d : RuleDefinition}
    (h : d.sequence = []) :
    biocToSPL2 order name d =
      endpointOpening ++ (quotedStage (str "rule_name") ++ (name ++ [0x22])) := by
  rw [biocToSPL2, if_pos h, endpointOpening, quotedStage,
    show str "dataset = xsiam_endpoint | filter rule_name = \"" =
      str "dataset = xsiam_endpoint | " ++ (str "filter" ++ 0x20 ::
        (str "rule_name" ++ str " = \"")) from rfl, show str "\"" = [0x22] from rfl]
  simp

/-- Without an `and` there is one piece. -/
theorem pieces_of_noAnd {s : GoString} (h : index andSep (toLower s) = none) :
    CutsInside s ∧ pieces s = [s] := by
  have hcuts := cuts_of_index_none h
  rw [CutsInside, pieces, hcuts]
  exact ⟨fun o ho => absurd ho List.not_mem_nil, rfl⟩

/-- The query is parsed when its first stage can be split, and there is no other. -/
theorem parses_iff {q stage : GoString} (hfirst : firstStage q = str "dataset = xsiam_endpoint")
    (hlater : laterStages q = [stage]) (hfilter : IsFilter stage) :
    (∃ p, parseXQLForNgx q = some p) ↔ CutsInside (filterText stage) := by
  have hinside := datasetInside_open hfirst
  rw [parseXQLForNgx_returns_iff, FiltersInside, hlater, List.forall_mem_singleton]
  exact ⟨fun h => h.2 hfilter, fun h => ⟨hinside, fun _ => h⟩⟩

section Name

variable {name : GoString} (h : OneStage name)

include h

/-- A name on one line makes one stage. -/
theorem laterStages_name :
    laterStages (endpointOpening ++ (quotedStage (str "rule_name") ++ (name ++ [0x22]))) =
      [quotedStage (str "rule_name") ++ (name ++ [0x22])] := by
  rw [h.append_quote.laterStages (firm_quotedStage field_ruleName)
    (bar_notMem_quotedStage field_ruleName), trimEnd_quote]

theorem queryConditions_name :
    queryConditions (endpointOpening ++ (quotedStage (str "rule_name") ++ (name ++ [0x22]))) =
      (pieces (str "rule_name = \"" ++ (name ++ [0x22]))).filterMap condition := by
  have hstage := stageConditions_quotedStage field_ruleName (name ++ [0x22])
  rw [trimEnd_quote] at hstage
  rw [queryConditions, laterStages_name h, List.flatMap_cons, hstage]
  simp only [List.flatMap_nil, List.append_nil]
  rfl

theorem parses_name_iff :
    (∃ p, parseXQLForNgx (endpointOpening ++ (quotedStage (str "rule_name") ++ (name ++ [0x22]))) =
      some p) ↔ CutsInside (str "rule_name = \"" ++ (name ++ [0x22])) := by
  have hstage := filterText_quotedStage field_ruleName (name ++ [0x22])
  rw [trimEnd_quote] at hstage
  rw [parses_iff (firstStage_open (firm_quotedStage field_ruleName)
    (bar_notMem_quotedStage field_ruleName) _) (laterStages_name h) (isFilter_append _), hstage]
  exact Iff.rfl

end Name

/-- The value that is read for a name, as far as the text behind it goes. -/
theorem condition_name (t : GoString) :
    condition (str "rule_name = \"" ++ t) =
      some (str "rule_name", trim (trimEnd t) (str "\"'")) := by
  rw [← trim_quote_cons]
  exact condition_append field_ruleName.firm field_ruleName.equals t

/-- The whole text is there, and the value is the name without quotes at its ends. -/
theorem condition_whole_name (name : GoString) :
    condition (str "rule_name = \"" ++ (name ++ [0x22])) =
      some (str "rule_name", trim name (str "\"'")) := by
  rw [condition_name, trimEnd_quote, trim_append_quote]

theorem readsAs_name {name : GoString} (h : ReadsAsName name) :
    ReadsAs (endpointOpening ++ (quotedStage (str "rule_name") ++ (name ++ [0x22])))
      fun ev => ev (str "rule_name") = some name := by
  obtain ⟨hinside, hpieces⟩ := pieces_of_noAnd h.noAnd
  refine readsAs_iff.mpr ⟨(parses_name_iff h.oneStage).mpr hinside, fun ev => ?_⟩
  rw [queryConditions_name h.oneStage, hpieces, List.filterMap_cons, condition_whole_name, h.quotes]
  exact satisfies_singleton

/-- What is read is found in some stage. -/
theorem exists_stage_of_condition {q : GoString} {cond : GoString × GoString}
    (h : cond ∈ queryConditions q) : ∃ part ∈ queryStages q, cond.2 ⊆ part := by
  obtain ⟨part, hpart, hcond⟩ := List.mem_flatMap.mp h
  exact ⟨part, List.mem_of_mem_tail hpart, (stageConditions_subset hcond).2⟩

/-- A name that is read as it is stays in one stage. -/
theorem oneStage_of_conditions {name : GoString} (h : ∀ c ∈ queryConditions
    (endpointOpening ++ (quotedStage (str "rule_name") ++ (name ++ [0x22]))),
      c = (str "rule_name", name)) : OneStage name := by
  obtain ⟨t', ht', hmem⟩ := first_condition field_ruleName (name ++ [0x22])
  have hvalue : trim (0x22 :: trimEnd t') (str "\"'") = name := (Prod.mk.inj (h _ hmem)).2
  obtain ⟨part, hpart, hsub⟩ := exists_stage_of_condition hmem
  rw [hvalue] at hsub
  have hnewline : 0x0A ∉ name := fun hin => newline_notMem_stage hpart (hsub hin)
  refine ⟨hnewline, fun hin => ?_, fun hin => bar_notMem_stage hpart (hsub hin)⟩
  -- on one line, the value is what a comment has left over
  rw [openTail_of_line (by simpa using hnewline)] at ht'
  have hleft : trim (trimEnd t') (str "\"'") <:+: stripComment (name ++ [0x22]) :=
    (infix_trim _ _).trans (((prefix_trimEnd t').trans ht').trans (prefix_trimEnd _)).isInfix
  rw [trim_quote_cons] at hvalue
  rw [hvalue] at hleft
  exact not_infix_stripComment _ (hin.trans hleft)

/-- **Which names are read as they are.** -/
theorem readsAs_name_iff {name : GoString} :
    ReadsAs (endpointOpening ++ (quotedStage (str "rule_name") ++ (name ++ [0x22])))
      (fun ev => ev (str "rule_name") = some name) ↔ ReadsAsName name := by
  refine ⟨fun h => ?_, readsAs_name⟩
  obtain ⟨hparse, hmeans⟩ := readsAs_iff.mp h
  obtain ⟨-, hall⟩ := eq_of_satisfies_iff hmeans
  have hone := oneStage_of_conditions hall
  have hinside := (parses_name_iff hone).mp hparse
  have hguard : Guard (str "rule_name = \"") := field_ruleName.guard
  rw [queryConditions_name hone] at hall
  rcases hguard.pieces_eq (name ++ [0x22]) with ⟨hcuts, hpieces⟩ | ⟨o, rest, ho, hpieces⟩
  · refine ⟨hone, ?_, ?_⟩
    · cases hidx : index andSep (toLower (str "rule_name = \"" ++ (name ++ [0x22]))) with
      | none => rfl
      | some idx =>
        rw [cuts_of_index hidx] at hcuts
        cases hcuts
    · rw [hpieces, List.filterMap_cons, condition_whole_name] at hall
      exact (Prod.mk.inj (hall _ List.mem_cons_self)).2
  · -- the separator takes five bytes, and what is before it is too short
    rw [hpieces, List.filterMap_cons, condition_name] at hall
    have hvalue := (Prod.mk.inj (hall _ List.mem_cons_self)).2
    have hcut := hinside _ ho
    have hlen : name.length ≤ o := by
      rw [← hvalue]
      refine (infix_trim _ _).length_le.trans ((prefix_trimEnd _).length_le.trans ?_)
      exact List.length_take_le _ _
    rw [List.length_append, List.length_append, List.length_singleton] at hcut
    omega

/-! ### Sequences -/

theorem field_eventType : Field (str "(event_type") where
  firm := ⟨⟨0x28, rfl, by decide⟩, ⟨0x65, rfl, by decide⟩, by decide, by decide⟩
  equals := by decide
  noBar := by decide
  guard := ⟨by decide +kernel, by decide +kernel⟩

/-- The query of a rule with a sequence opens with a parenthesis. -/
theorem biocToSPL2_cons (order : ℕ → MapRange) (name : GoString) {d : RuleDefinition}
    (h : d.sequence ≠ []) : ∃ t, biocToSPL2 order name d =
      endpointOpening ++ (quotedStage (str "(event_type") ++ t) := by
  obtain ⟨step, steps, hsteps⟩ := List.exists_cons_of_ne_nil h
  have hpart : ∃ t, biocPart (order 0) step = str "(event_type = \"" ++ t := by
    rw [biocPart, List.append_assoc (str "event_type = \""), join_append,
      show str "(event_type = \"" = str "(" ++ str "event_type = \"" from rfl]
    simp only [List.append_assoc]
    exact ⟨_, rfl⟩
  obtain ⟨t, ht⟩ := hpart
  rw [biocToSPL2, if_neg h, hsteps, List.zipIdx_cons, List.map_cons, ht, join_append,
    endpointOpening, quotedStage, show str "dataset = xsiam_endpoint | filter " =
      str "dataset = xsiam_endpoint | " ++ (str "filter" ++ [0x20]) from rfl,
    show str "(event_type = \"" = str "(event_type" ++ str " = \"" from rfl]
  simp only [List.append_assoc, List.cons_append, List.nil_append]
  exact ⟨_, rfl⟩

/-- The event that a step describes. -/
def BIOCEvent.described (step : BIOCEvent) : Event := fun k =>
  if k = str "event_type" then some step.eventType else step.conditions[k]?

/-- **A sequence is read as an equation on a field of no event.** -/
theorem not_readsAs_sequence (order : ℕ → MapRange) (rd : Reading) (name : GoString)
    {d : RuleDefinition} (h : d.sequence ≠ []) (hord : Ordinary rd d .bioc) :
    ¬ReadsAs (biocToSPL2 order name d) (Detects rd name d .bioc) := by
  intro hreads
  obtain ⟨step, hstep, htype, hparen⟩ := hord h
  obtain ⟨t, ht⟩ := biocToSPL2_cons order name h
  rw [ht] at hreads
  obtain ⟨-, hmeans⟩ := readsAs_iff.mp hreads
  obtain ⟨t', -, hmem⟩ := first_condition field_eventType t
  have hdetects : Detects rd name d .bioc step.described := by
    rw [Detects, if_neg h]
    refine ⟨step, hstep, if_pos rfl, fun k v hk => ?_⟩
    have hne : k ≠ str "event_type" := by
      rintro rfl
      rw [htype] at hk
      cases hk
    rw [BIOCEvent.described, if_neg hne, hk]
  have hcond := (hmeans step.described).mpr hdetects _ hmem
  have hnone : step.described (str "(event_type") = none := by
    rw [BIOCEvent.described, if_neg (by decide), hparen]
  rw [hnone] at hcond
  cases hcond

/-! ### Indicators -/

theorem filter_opening (t : GoString) :
    str "dataset = xsiam_endpoint | filter " ++ t =
      endpointQuery t := by
  rw [endpointQuery, endpointOpening, show str "dataset = xsiam_endpoint | filter " =
    str "dataset = xsiam_endpoint | " ++ (str "filter" ++ [0x20]) from rfl]
  simp

/-- Of equations that some event meets, each is among the conditions that say the same. -/
theorem mem_of_satisfies_iff {conds kvs : List (GoString × GoString)} {ev : Event}
    (hev : Satisfies ev kvs) (h : ∀ ev : Event, Satisfies ev conds ↔ Satisfies ev kvs) :
    kvs ⊆ conds := by
  classical
  have hconds : Satisfies ev conds := (h ev).mpr hev
  -- the event, as far as the conditions speak of it
  have hless : Satisfies (fun k => if ∃ v, (k, v) ∈ conds then ev k else none) conds :=
    fun c hc => (if_pos ⟨c.2, hc⟩).trans (hconds c hc)
  rintro ⟨f, v⟩ hkv
  have hkept := (h _).mp hless (f, v) hkv
  simp only at hkept
  split_ifs at hkept with hex
  obtain ⟨w, hw⟩ := hex
  have hsame : w = v := Option.some.inj ((hconds (f, w) hw).symm.trans (hev (f, v) hkv))
  exact hsame ▸ hw

/-- **A pattern that is written as what it means is read so**, if nothing in it is taken for
grammar. -/
theorem readsAs_pattern {rd : Reading} {pattern : GoString} (h : ReadsAsPattern rd pattern) :
    ReadsAs (str "dataset = xsiam_endpoint | filter " ++ pattern) (rd.pattern pattern) := by
  obtain ⟨kvs, hwritten, hplain, hmeant⟩ := h
  obtain ⟨hparse, hconds⟩ := queryConditions_written hwritten hplain
  rw [filter_opening, readsAs_iff, hconds]
  exact ⟨hparse, fun ev => (hmeant ev).symm⟩

/-- And of ordinary patterns no others are. -/
theorem readsAsPattern_of_readsAs {rd : Reading} {pattern : GoString}
    (hord : OrdinaryPattern rd pattern)
    (h : ReadsAs (str "dataset = xsiam_endpoint | filter " ++ pattern) (rd.pattern pattern)) :
    ReadsAsPattern rd pattern := by
  rw [filter_opening, readsAs_iff] at h
  rcases hord with ⟨kvs, hwritten, hlower, ⟨ev, hev⟩, hmeant⟩ | hnever
  · have hread := mem_of_satisfies_iff hev fun ev => (h.2 ev).trans (hmeant ev)
    exact ⟨kvs, hwritten, plain_of_read hwritten hlower hread, hmeant⟩
  · exact absurd (fun ev => (h.2 ev).symm) (hnever _)

/-- Without a pattern there is one condition of the program. -/
theorem readsAs_match : ReadsAs (str "dataset = xsiam_endpoint | filter ioc_match = true")
    fun ev => ev (str "ioc_match") = some (str "true") := by
  have hparse : (parseXQLForNgx
      (str "dataset = xsiam_endpoint | filter ioc_match = true")).isSome = true := by
    decide +kernel
  have hconds : queryConditions (str "dataset = xsiam_endpoint | filter ioc_match = true") =
      [(str "ioc_match", str "true")] := by
    decide +kernel
  refine readsAs_iff.mpr ⟨Option.isSome_iff_exists.mp hparse, fun ev => ?_⟩
  rw [hconds]
  exact satisfies_singleton

/-- One value has no equation: the field would have no `=` in it, the value all there are, and the
equation one more. -/
theorem not_readsAs_value (f v : GoString) :
    ¬ReadsAs (str "dataset = xsiam_endpoint | filter " ++ f ++ str " in (" ++
      (str "\"" ++ v ++ str "\"") ++ str ")") fun ev => ev f = some v := by
  intro hreads
  obtain ⟨-, hmeans⟩ := readsAs_iff.mp hreads
  obtain ⟨hne, hall⟩ := eq_of_satisfies_iff hmeans
  obtain ⟨c, hc⟩ := List.exists_mem_of_ne_nil _ hne
  obtain rfl := hall c hc
  rw [show ∀ a : GoString, str "dataset = xsiam_endpoint | filter " ++ f ++ str " in (" ++ a ++
    str ")" = str "dataset = xsiam_endpoint | filter " ++ (f ++ str " in (" ++ a ++ str ")") from
      fun a => by simp, filter_opening, endpointQuery] at hc
  obtain ⟨part, hpart, hcond⟩ := List.mem_flatMap.mp hc
  obtain ⟨hfield, hcount⟩ := count_stageConditions hcond
  have hle := hcount.trans (count_laterStages_le firm_filter (by decide) (by decide) (by decide) hpart)
  have hin : (str " in (").count 0x3D = 0 := by decide
  have hquote : (str "\"").count 0x3D = 0 := by decide
  have hclose : (str ")").count 0x3D = 0 := by decide
  have hspace : ((0x20 : UInt8) == 0x3D) = false := by decide
  simp only [List.count_cons, List.count_append, List.count_eq_zero.mpr hfield, hin, hquote, hclose,
    hspace] at hle
  simp at hle

/-- **A list of values is read as no equation that says the same.** -/
theorem not_readsAs_values (rd : Reading) (name : GoString) {d : RuleDefinition}
    (h : d.iocValues ≠ []) (hord : Ordinary rd d .ioc) :
    ¬ReadsAs (iocToSPL2 d) (Detects rd name d .ioc) := by
  have hdetects : ∀ ev, Detects rd name d .ioc ev ↔
      ∃ v, ev d.indicator = some v ∧ v ∈ d.iocValues := by
    intro ev
    rw [Detects, if_neg h]
    exact exists_congr fun v => and_comm
  intro hreads
  obtain ⟨v, vs, hvs⟩ := List.exists_cons_of_ne_nil h
  rcases vs with _ | ⟨w, ws⟩
  · refine not_readsAs_value d.indicator v ?_
    rw [iocToSPL2, if_neg h, hvs] at hreads
    obtain ⟨p, hp, hmeans⟩ := hreads
    refine ⟨p, by simpa [join, RuleDefinition.indicator] using hp, fun ev => ?_⟩
    rw [hmeans ev, hdetects ev, hvs]
    simp
  · obtain ⟨a, ha, b, hb, hab⟩ := hord.2 (by rw [hvs]; simp)
    obtain ⟨-, hmeans⟩ := readsAs_iff.mp hreads
    exact not_satisfies_iff_of_two hab (P := (· ∈ d.iocValues)) ha hb fun ev =>
      (hmeans ev).trans (hdetects ev)

/-! ### Every rule -/

theorem ruleToSPL2_kind (lib : StdLib) (order : ℕ → MapRange) (kind : Kind) (name : GoString)
    (d : RuleDefinition) :
    ruleToSPL2 lib order ⟨name, kind.ruleType, d⟩ = match kind with
      | .bioc => biocToSPL2 order name d
      | .ioc => iocToSPL2 d
      | .ueba => uebaToSPL2 lib d := by
  cases kind with
  | bioc => simp [ruleToSPL2, Kind.ruleType]
  | ioc => simp [ruleToSPL2, Kind.ruleType]
  | ueba => simp [ruleToSPL2, Kind.ruleType]

section Rule

variable {lib : StdLib} {rd : Reading} {kind : Kind} {name : GoString} {d : RuleDefinition}

theorem detects_name (h : d.sequence = []) :
    Detects rd name d .bioc = fun ev => ev (str "rule_name") = some name := by
  funext ev
  rw [Detects, if_pos h]

theorem detects_match (h : d.iocValues = []) (hpattern : d.iocPattern = []) :
    Detects rd name d .ioc = fun ev => ev (str "ioc_match") = some (str "true") := by
  funext ev
  rw [Detects, if_pos h, if_pos hpattern]

theorem detects_pattern (h : d.iocValues = []) (hpattern : d.iocPattern ≠ []) :
    Detects rd name d .ioc = rd.pattern d.iocPattern := by
  funext ev
  rw [Detects, if_pos h, if_neg hpattern]

theorem iocToSPL2_pattern (h : d.iocValues = []) (hpattern : d.iocPattern ≠ []) :
    iocToSPL2 d = str "dataset = xsiam_endpoint | filter " ++ d.iocPattern := by
  rw [iocToSPL2, if_pos h, if_pos hpattern]

theorem iocToSPL2_match (h : d.iocValues = []) (hpattern : d.iocPattern = []) :
    iocToSPL2 d = str "dataset = xsiam_endpoint | filter ioc_match = true" := by
  rw [iocToSPL2, if_pos h, if_neg (not_not.mpr hpattern)]

theorem keepsMeaning_of_kept (h : Kept rd name d kind) : KeepsMeaning lib rd kind name d := by
  rintro q ⟨order, rfl⟩
  rw [ruleToSPL2_kind]
  cases kind with
  | bioc =>
    obtain ⟨hseq, hname⟩ := h
    change ReadsAs (biocToSPL2 order name d) _
    rw [detects_name hseq, biocToSPL2_nil order name hseq, readsAs_name_iff]
    exact hname
  | ioc =>
    obtain ⟨hvalues, hpattern⟩ := h
    change ReadsAs (iocToSPL2 d) _
    by_cases hnil : d.iocPattern = []
    · rw [detects_match hvalues hnil, iocToSPL2_match hvalues hnil]
      exact readsAs_match
    · rw [detects_pattern hvalues hnil, iocToSPL2_pattern hvalues hnil]
      exact readsAs_pattern (hpattern.resolve_left hnil)
  | ueba => exact h.elim

/-- An ordinary rule that keeps its meaning is one of those. -/
theorem kept_of_keepsMeaning (hord : Ordinary rd d kind) (h : KeepsMeaning lib rd kind name d) :
    Kept rd name d kind := by
  have hreads := h (ruleToSPL2 lib (fun _ => MapRange.byKey) ⟨name, kind.ruleType, d⟩) ⟨_, rfl⟩
  rw [ruleToSPL2_kind] at hreads
  cases kind with
  | bioc =>
    change ReadsAs (biocToSPL2 (fun _ => MapRange.byKey) name d) _ at hreads
    by_cases hseq : d.sequence = []
    · rw [detects_name hseq, biocToSPL2_nil _ name hseq, readsAs_name_iff] at hreads
      exact ⟨hseq, hreads⟩
    · exact absurd hreads (not_readsAs_sequence (fun _ => MapRange.byKey) rd name hseq hord)
  | ioc =>
    change ReadsAs (iocToSPL2 d) _ at hreads
    by_cases hvalues : d.iocValues = []
    · refine ⟨hvalues, ?_⟩
      by_cases hnil : d.iocPattern = []
      · exact Or.inl hnil
      · rw [detects_pattern hvalues hnil, iocToSPL2_pattern hvalues hnil] at hreads
        exact Or.inr (readsAsPattern_of_readsAs (hord.1 hvalues hnil) hreads)
    · exact absurd hreads (not_readsAs_values rd name hvalues hord)
  | ueba =>
    obtain ⟨a, b, hab, ha, hb⟩ := hord
    exact absurd (readsAs_iff.mp hreads).2 (not_satisfies_iff_of_two hab ha hb)

end Rule

/-- No pattern means anything, and the digits that are more than seven exceed every threshold. -/
def plainReading : Reading where
  pattern _ _ := False
  exceeds text _ := text = str "8" ∨ text = str "9"

/-- Two equations on two lines, with a comment behind the first, and a stage that picks a field. -/
def twoLines : GoString := str "host = \"a\" // the jump host\n\tAND user = 'b c' | fields host"

/-- What stands between them. -/
def lineGap : Gap where
  lines := [([0x20], str "// the jump host")]
  last := [0x09]
  isLine := List.forall_mem_singleton.mpr ⟨White.nil.space_cons, .inr ⟨_, by decide +kernel, rfl⟩⟩
  isLast := .cons (w := [0x09]) (by decide) (by decide) .nil

/-- Every pattern means these equations. -/
def twoReading : Reading where
  pattern _ ev := Satisfies ev [(str "host", str "a"), (str "user", str "b c")]
  exceeds _ _ := False

theorem written_twoLines : Written twoLines [(str "host", str "a"), (str "user", str "b c")] := by
  have hhost : FieldText (str "host") :=
    ⟨trimmed_of_visible ⟨0x68, rfl, by decide⟩ ⟨0x74, rfl, by decide⟩, by decide, by decide +kernel⟩
  have huser : FieldText (str "user") :=
    ⟨trimmed_of_visible ⟨0x75, rfl, by decide⟩ ⟨0x72, rfl, by decide⟩, by decide, by decide +kernel⟩
  have hfirst : IsEquation [⟨.tight, str "host"⟩, ⟨.space, str "="⟩, ⟨.space, str "\"a\""⟩]
      (str "host", str "a") := .value .space hhost (.quoted (q := 0x22) (by decide) (str "a"))
  have hsecond : IsEquation [⟨.space, str "user"⟩, ⟨.space, str "="⟩, ⟨.space, str "'b c'"⟩]
      (str "user", str "b c") := .value .space huser (.quoted (q := 0x27) (by decide) (str "b c"))
  have hwords : ∀ t ∈ [(⟨.space, str "host"⟩ : Token)], Stays t.text ∧ bar ∉ t.text :=
    List.forall_mem_singleton.mpr
      ⟨⟨hhost.trimmed, by decide +kernel, by decide +kernel⟩, by decide +kernel⟩
  have hboth : IsConjunction ([⟨.tight, str "host"⟩, ⟨.space, str "="⟩, ⟨.space, str "\"a\""⟩] ++
      [⟨lineGap, str "AND"⟩, ⟨.space, str "user"⟩, ⟨.space, str "="⟩, ⟨.space, str "'b c'"⟩])
      [(str "host", str "a"), (str "user", str "b c")] :=
    .and hfirst (by decide +kernel) (by decide +kernel) (by decide) (by decide) (.one hsecond)
  have hstage : IsStages (⟨.space, [bar]⟩ :: ⟨.space, str "fields"⟩ ::
      ([(⟨.space, str "host"⟩ : Token)] ++ [])) [] :=
    .other .space List.mem_cons_self (by decide +kernel) hwords .nil
  exact ⟨_, _, _, [], hboth, hstage,
    ⟨.tight, [], .inl rfl, by decide +kernel, by decide +kernel⟩, rfl⟩

end Threat

end Xsiam
