import Xsiam.Etl.Applied

/-!
# When an event is lost

An event is kept when the result names a raw index, or when an `etl_only` rule
suppressed the raw write and there is a processed entry with a sink to go to
(`Xsiam.Etl.Pipeline.Kept`). The pipeline does not always keep an event that no
action dropped: `etl_only` empties the raw index for the rest of the chain, so a
`raw_only` rule further on returns neither a raw index nor an entry, and a last rule
none of whose sinks passes leaves nothing either.

`Xsiam.Etl.Pipeline.process_keeps_iff` says exactly when an event is kept, in terms of
the rules that apply.
-/

namespace Xsiam

open Go

/-- A sink that names a destination. -/
def ETLSink.real (sink : ETLSink) : Prop := sink.ngxIndex ≠ [] ∨ sink.arangoCollection ≠ []

namespace Etl

/-! ### Sinks that resolve -/

/-- The conditions of the sinks of an output all split: none of them makes the splitter
slice out of range. -/
def SinksSplit (lib : StdLib) (out : ETLOutput) : Prop :=
  ∀ sink ∈ out.sinks, sink.real → sink.condition ≠ [] →
    (parseFilterExpr lib sink.condition).isSome

/-- An output has somewhere to write an entry: a sink with a destination whose condition
the entry passes, or a flat field where there are no sinks. -/
def Writes (lib : StdLib) (out : ETLOutput) (e : LogEntry) : Prop :=
  (out.sinks = [] ∧ (out.ngxIndex ≠ [] ∨ out.arangoCollection ≠ [])) ∨
    ∃ sink ∈ out.sinks, sink.real ∧ sinkMatches lib sink e = some true

theorem sinkMatches_isSome (lib : StdLib) (sink : ETLSink) (e : LogEntry) :
    (sinkMatches lib sink e).isSome ↔
      (sink.condition ≠ [] → (parseFilterExpr lib sink.condition).isSome) := by
  rw [sinkMatches]
  by_cases h : sink.condition = [] <;> simp [h]

theorem real_iff (sink : ETLSink) :
    sink.real ↔ ¬(sink.ngxIndex = [] ∧ sink.arangoCollection = []) := by
  rw [ETLSink.real]
  tauto

/-- What one sink resolves to, when it resolves: something exactly where it is a
destination whose condition holds. -/
theorem resolveSink_spec (lib : StdLib) (e : LogEntry) (sink : ETLSink) :
    ((resolveSink lib e sink).isSome ↔
      (sink.real → sink.condition ≠ [] → (parseFilterExpr lib sink.condition).isSome)) ∧
    ∀ rs, resolveSink lib e sink = some rs →
      (rs ≠ [] ↔ sink.real ∧ sinkMatches lib sink e = some true) := by
  rw [resolveSink, real_iff, ← sinkMatches_isSome lib sink e]
  split_ifs with h0
  · constructor
    · simp [h0]
    · rintro rs hrs
      obtain rfl := Option.some.inj hrs
      simp [h0]
  · constructor
    · simp [h0]
    · rintro rs hrs
      obtain ⟨ok, hok, rfl⟩ := Option.map_eq_some_iff.mp hrs
      rcases ok with _ | _ <;> simp [h0, hok]

theorem resolveSinksLoop_spec (lib : StdLib) (e : LogEntry) (sinks : List ETLSink) :
    ((resolveSinksLoop lib e sinks).isSome ↔
      ∀ sink ∈ sinks, sink.real → sink.condition ≠ [] →
        (parseFilterExpr lib sink.condition).isSome) ∧
    ∀ rs, resolveSinksLoop lib e sinks = some rs →
      (rs ≠ [] ↔ ∃ sink ∈ sinks, sink.real ∧ sinkMatches lib sink e = some true) := by
  induction sinks with
  | nil => simp [resolveSinksLoop]
  | cons sink sinks ih =>
    obtain ⟨hsome, hne⟩ := resolveSink_spec lib e sink
    obtain ⟨ihsome, ihne⟩ := ih
    rw [resolveSinksLoop, List.forall_mem_cons, ← hsome, ← ihsome]
    rcases hres : resolveSink lib e sink with _ | results
    · simp
    · constructor
      · simp
      · rintro rs hrs
        obtain ⟨rest, hrest, rfl⟩ := Option.map_eq_some_iff.mp hrs
        have hhead := hne results hres
        have htail := ihne rest hrest
        rw [List.exists_mem_cons_iff, ← hhead, ← htail, ne_eq, List.append_eq_nil_iff]
        tauto

theorem resolveSinks_isSome (lib : StdLib) (out : ETLOutput) (e : LogEntry) :
    (resolveSinks lib out e).isSome ↔ SinksSplit lib out := by
  rw [resolveSinks, SinksSplit]
  split_ifs with h0 <;> simp [h0, (resolveSinksLoop_spec lib e out.sinks).1]

theorem resolveSinks_ne_nil {lib : StdLib} {out : ETLOutput} {e : LogEntry}
    {rs : List SinkResult} (h : resolveSinks lib out e = some rs) :
    rs ≠ [] ↔ Writes lib out e := by
  rw [resolveSinks] at h
  rw [Writes]
  split_ifs at h with h0 h1
  · obtain rfl := Option.some.inj h
    simp [h0, h1]
  · obtain rfl := Option.some.inj h
    simp only [ne_eq, List.cons_ne_nil, not_false_eq_true, true_iff]
    exact Or.inl ⟨h0, not_and_or.mp h1⟩
  · rw [(resolveSinksLoop_spec lib e out.sinks).2 rs h]
    simp [h0]

/-! ### Events that are kept -/

namespace Pipeline

variable (p : Pipeline)

/-- The result does not lose the event: there is a raw index, or an applied rule
suppressed the raw write and the processed entry has a sink. -/
def Kept (entry : LogEntry) (tag : GoString) (res : Result) : Prop :=
  res.rawNgxIndex ≠ [] ∨
    (∃ rule ∈ p.applied entry tag, rule.rawWriteMode = .etlOnly) ∧
      (∃ e, res.etlEntry = some e) ∧ res.sinks ≠ []

/-- The rules that apply keep the event. Where a `raw_only` rule is among them, none may
be `etl_only`. Where none is, the conditions of the last rule's sinks must split, and
if a rule is `etl_only` the entry the actions leave must have somewhere to go. -/
def KeepsEvent (st : ExecState) (entry : LogEntry) (tag : GoString) : Prop :=
  if ∃ rule ∈ p.applied entry tag, rule.rawWriteMode = .rawOnly then
    ∀ rule ∈ p.applied entry tag, rule.rawWriteMode ≠ .etlOnly
  else
    SinksSplit p.lib (lastOutput {} (p.applied entry tag)) ∧
      ((∀ rule ∈ p.applied entry tag, rule.rawWriteMode ≠ .etlOnly) ∨
        ∃ e, (p.runActions st entry (p.appliedActions entry tag)).1 = some e ∧
          Writes p.lib (lastOutput {} (p.applied entry tag)) e)

theorem rawIndex_ne_nil (tag : GoString) : rawIndex tag ≠ [] := by
  have h : str "raw_" ≠ [] := by decide
  simp [rawIndex, h]

theorem rawThrough_ne_nil (tag : GoString) (rules : List CompiledRule) :
    rawThrough (rawIndex tag) rules ≠ [] ↔
      ∀ rule ∈ rules, rule.rawWriteMode ≠ .etlOnly := by
  rw [rawThrough]
  split_ifs with h
  · simpa using h
  · simpa [rawIndex_ne_nil] using h

/-- The two endings of rules that let an event through, and when they keep it. -/
theorem kept_ending (entry e : LogEntry) (tag : GoString) :
    (∃ res, (ending (rawIndex tag) {} (p.applied entry tag) e).result p.lib tag = some res ∧
        p.Kept entry tag res) ↔
      if ∃ rule ∈ p.applied entry tag, rule.rawWriteMode = .rawOnly then
        ∀ rule ∈ p.applied entry tag, rule.rawWriteMode ≠ .etlOnly
      else
        SinksSplit p.lib (lastOutput {} (p.applied entry tag)) ∧
          ((∀ rule ∈ p.applied entry tag, rule.rawWriteMode ≠ .etlOnly) ∨
            Writes p.lib (lastOutput {} (p.applied entry tag)) e) := by
  have hthrough := rawThrough_ne_nil tag (p.applied entry tag)
  rw [ending]
  by_cases hraw : ∃ rule ∈ p.applied entry tag, rule.rawWriteMode = .rawOnly
  · rw [if_pos (by simpa using hraw), if_pos hraw, ← hthrough]
    simp [Outcome.result, Kept]
  · rw [if_neg (by simpa using hraw), if_neg hraw, ← resolveSinks_isSome p.lib _ e, ← hthrough]
    rcases hres : resolveSinks p.lib (lastOutput {} (p.applied entry tag)) e with _ | sinks
    · simp [Outcome.result, hres]
    · rw [← resolveSinks_ne_nil hres]
      simp only [Outcome.result, hres, Option.map_some, Option.some.injEq, exists_eq_left', Kept,
        fillBackcompat_rawNgxIndex, fillBackcompat_etlEntry, fillBackcompat_sinks,
        exists_eq', true_and, Option.isSome_some]
      -- an empty raw index is the work of an `etl_only` rule
      have hetl : ¬rawThrough (rawIndex tag) (p.applied entry tag) ≠ [] →
          ∃ rule ∈ p.applied entry tag, rule.rawWriteMode = .etlOnly := by
        intro hc
        rw [hthrough] at hc
        simpa using hc
      tauto

/-- **When an event that no action drops is kept**: exactly when the rules that apply
keep it. -/
theorem process_keeps_iff (st : ExecState) (entry : LogEntry) (tag : GoString)
    (h : (p.route st entry tag).1 ≠ .dropped) :
    (∃ res, (p.process st entry tag).1 = some res ∧ p.Kept entry tag res) ↔
      p.KeepsEvent st entry tag := by
  have hroute := p.route_eq st entry tag
  rw [process, KeepsEvent]
  by_cases h0 : p.applied entry tag = []
  · rw [if_pos h0] at hroute
    simp [hroute, Outcome.result, Kept, rawIndex_ne_nil, h0, SinksSplit, lastOutput]
  · rw [if_neg h0] at hroute
    rcases hacts : p.runActions st entry (p.appliedActions entry tag) with ⟨_ | e, st'⟩
    · rw [hacts] at hroute
      exact absurd (congrArg Prod.fst hroute) h
    · rw [hacts] at hroute
      simp only [hroute, finish, Option.some.injEq, exists_eq_left']
      exact p.kept_ending entry e tag

/-- A rule that only writes processed events, alone, keeps them. -/
theorem process_keeps_iff_etlOnly :
    let p : Pipeline :=
      ⟨literalLib, [openRule .sequential .etlOnly [] { ngxIndex := str "etl_r1" }], none⟩
    ∃ res, (p.process .init (entryWith (str "t") []) (str "tag")).1 = some res ∧
      p.Kept (entryWith (str "t") []) (str "tag") res := by
  intro p
  have hroute : p.route .init (entryWith (str "t") []) (str "tag")
      = (.done [] { ngxIndex := str "etl_r1" } (entryWith (str "t") []), .init) := rfl
  have hsink : str "etl_r1" ≠ [] := by decide
  refine (p.process_keeps_iff .init (entryWith (str "t") []) (str "tag") ?_).mpr ?_
  · rw [hroute]
    simp
  · have happ : p.applied (entryWith (str "t") []) (str "tag") = p.rules := rfl
    rw [KeepsEvent, happ, if_neg (by simp [p, openRule])]
    refine ⟨by simp [SinksSplit, lastOutput, p, openRule], Or.inr ⟨entryWith (str "t") [], rfl, ?_⟩⟩
    exact Or.inl ⟨rfl, Or.inl hsink⟩

/-- A rule that only writes processed events, and one that only writes raw events. -/
def etlOnlyThenRawOnly : Pipeline where
  lib := literalLib
  rules := [openRule .sequential .etlOnly [] { ngxIndex := str "etl_r1" },
    openRule .sequential .rawOnly [] { ngxIndex := str "etl_r2" }]
  executor := none

/-- The two rules in a chain lose every event, though no action drops any. -/
theorem etlOnlyThenRawOnly_loses :
    (etlOnlyThenRawOnly.route .init (entryWith (str "t") []) (str "tag")).1 ≠ .dropped ∧
      ¬∃ res, (etlOnlyThenRawOnly.process .init (entryWith (str "t") []) (str "tag")).1 = some res ∧
        etlOnlyThenRawOnly.Kept (entryWith (str "t") []) (str "tag") res := by
  have hroute : etlOnlyThenRawOnly.route .init (entryWith (str "t") []) (str "tag")
      = (.rawOnly [], .init) := rfl
  rw [process, hroute]
  constructor
  · simp
  · rintro ⟨res, hres, hkept⟩
    obtain rfl := Option.some.inj hres
    simp [Kept] at hkept

end Pipeline

end Etl

end Xsiam
