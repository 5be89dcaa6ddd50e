import Xsiam.Etl.DryRun
import Xsiam.Etl.Loss

/-!
# What the test of a rule tests

`Service.Test` of `internal/domain/etl/service.go` is to make a pipeline of the rule alone; it says so,
and then runs the pipeline that the events go through. So its answer is that of the rules that are
loaded and apply to the sample (`Xsiam.Etl.Service.test_eq_shown`), and the rule itself is only looked
up: one that is disabled, or that another one comes before, has no part in it.

The answer shows whether a rule matched, the raw index, the entry that the actions leave and its sinks
(`Xsiam.Etl.Ending`), and all of that is read off a few orders: the actions, whether raw logs are kept
alone or not at all, and the last output. So the answer is that of the rule alone if no rule matches, or
if the rule does and the rules that apply in its place give the same orders
(`Xsiam.Etl.Service.testsAlone_of_actsAlike`); and the test of a rule that matches while none applies, or
of one that does not while another applies, never is.
-/

namespace Xsiam

namespace Etl

open Go Pipeline

/-! ### How rules end on a sample -/

/-- How rules that apply to a sample end, as far as a test shows it. -/
inductive Ending where
  /-- A condition of a sink makes the splitter panic. -/
  | panics
  /-- An action drops the sample, or a `raw_only` rule returns when the raw index is gone. -/
  | lost
  /-- A `raw_only` rule returns. -/
  | rawOnly
  /-- The entry that the actions leave goes to the sinks. -/
  | processed (rawIdx : GoString) (e : LogEntry) (sinks : List SinkSummary)

/-- The answer to a test that ends so. -/
def Ending.shown (tag : GoString) : Ending → Option TestResult
  | panics => none
  | lost => some ⟨true, [], [], true, none⟩
  | rawOnly => some ⟨true, rawIndex tag, [], false, none⟩
  | processed rawIdx e sinks => some ⟨true, rawIdx, sinks, false, some e⟩

/-- An answer that no rule matched is none of these. -/
theorem Ending.shown_ne_unmatched (tag : GoString) (ending : Ending) {t : TestResult}
    (h : t.matched = false) : ending.shown tag ≠ some t := by
  rintro heq
  cases ending
  case panics => cases heq
  all_goals
    obtain rfl := Option.some.inj heq
    cases h

/-- The summaries of what an output resolves to. -/
def sinkSummaries (lib : StdLib) (out : ETLOutput) (e : LogEntry) : Option (List SinkSummary) :=
  (resolveSinks lib out e).map fun sinks => sinks.map (·.summary)

theorem fillBackcompatLoop_matched (ss : List SinkResult) (res : Result) :
    (fillBackcompatLoop res ss).matched = res.matched := by
  induction ss generalizing res with
  | nil => rfl
  | cons s ss ih =>
    simp only [fillBackcompatLoop]
    split_ifs <;> first | rfl | exact ih _

/-- Filling in the flat fields leaves it at whether a rule matched. -/
@[simp] theorem fillBackcompat_matched (res : Result) :
    (fillBackcompat res).matched = res.matched := fillBackcompatLoop_matched _ res

namespace Pipeline

variable (p : Pipeline)

/-- How rules that apply to a sample end. -/
def endsAs (st : ExecState) (sample : LogEntry) (tag : GoString) (rules : List CompiledRule) :
    Ending :=
  match (p.runActions st sample ((acting rules).flatMap (·.actions))).1 with
  | none => .lost
  | some e =>
    if rules.any (·.rawWriteMode = .rawOnly) then
      if rules.any (·.rawWriteMode = .etlOnly) then .lost else .rawOnly
    else match sinkSummaries p.lib (lastOutput {} rules) e with
      | none => .panics
      | some sinks => .processed (rawThrough (rawIndex tag) rules) e sinks

/-- **What a test shows of rules that apply** is how they end. -/
theorem map_test_finish (st : ExecState) (sample : LogEntry) (tag : GoString)
    (rules : List CompiledRule) :
    ((finish (rawIndex tag) {} rules
      (p.runActions st sample ((acting rules).flatMap (·.actions)))).1.result p.lib tag).map
        Result.test = (p.endsAs st sample tag rules).shown tag := by
  rw [endsAs]
  generalize p.runActions st sample ((acting rules).flatMap (·.actions)) = run
  obtain ⟨_ | e, st'⟩ := run
  · rfl
  · dsimp only [finish, ending]
    split_ifs with hraw hetl
    · dsimp only [Outcome.result, rawThrough]
      rw [if_pos hetl]
      rfl
    · dsimp only [Outcome.result, rawThrough]
      rw [if_neg hetl]
      simp [Result.test, Ending.shown, rawIndex_ne_nil]
    · dsimp only [Outcome.result, sinkSummaries]
      cases resolveSinks p.lib (lastOutput {} rules) e with
      | none => rfl
      | some sinks => simp [Result.test, Ending.shown]

/-- The pipeline that holds one rule. -/
def holding (r : CompiledRule) : Pipeline := { p with rules := [r] }

/-- In it the rule applies if it matches. -/
theorem applied_holding (r : CompiledRule) (sample : LogEntry) (tag : GoString) :
    (p.holding r).applied sample tag = if matchesEntry p.lib r sample tag then [r] else [] := by
  rw [applied, seqMatched, firstMatched, holding]
  dsimp only
  by_cases hmatch : matchesEntry p.lib r sample tag = true
  · by_cases hseq : r.processingMode = .sequential
    · rw [if_pos hmatch, List.filter_cons_of_pos (by simp [hseq, hmatch]), List.filter_nil,
        if_pos (List.cons_ne_nil _ _), throughRawOnly]
      split_ifs
      · rfl
      · rfl
    · rw [if_pos hmatch, List.filter_cons_of_neg (by simp [hseq]), List.filter_nil,
        List.filter_cons_of_pos (by simp [hseq, hmatch]), List.filter_nil]
      rfl
  · rw [if_neg hmatch, List.filter_cons_of_neg (by simp [hmatch]), List.filter_nil,
      List.filter_cons_of_neg (by simp [hmatch]), List.filter_nil]
    rfl

/-- The answer that the test of a sample gives in a pipeline. -/
def shows (st : ExecState) (sample : LogEntry) (tag : GoString) : Option TestResult :=
  (p.process st sample tag).1.map Result.test

/-- **It is how the rules that apply end**, if there are any. -/
theorem shows_eq (st : ExecState) (sample : LogEntry) (tag : GoString) :
    p.shows st sample tag =
      if p.applied sample tag = [] then some ⟨false, rawIndex tag, [], false, none⟩
      else (p.endsAs st sample tag (p.applied sample tag)).shown tag := by
  rw [shows, process, route_eq]
  split_ifs with hnone
  · simp [Outcome.result, Result.test, rawIndex_ne_nil]
  · exact p.map_test_finish st sample tag _

/-- Rules give the same orders: the same actions in the same order, and the same about raw logs; and
where none of them returns before its output, the last output is the same. -/
structure SameOrders (rules rules' : List CompiledRule) : Prop where
  actions : (acting rules).flatMap (·.actions) = (acting rules').flatMap (·.actions)
  rawOnly : rules.any (·.rawWriteMode = .rawOnly) = rules'.any (·.rawWriteMode = .rawOnly)
  etlOnly : rules.any (·.rawWriteMode = .etlOnly) = rules'.any (·.rawWriteMode = .etlOnly)
  output : rules.any (·.rawWriteMode = .rawOnly) = false → lastOutput {} rules = lastOutput {} rules'

/-- **Rules that give the same orders end alike**, on every sample. -/
theorem endsAs_of_sameOrders {rules rules' : List CompiledRule} (h : SameOrders rules rules')
    (st : ExecState) (sample : LogEntry) (tag : GoString) :
    p.endsAs st sample tag rules = p.endsAs st sample tag rules' := by
  rw [endsAs, endsAs, h.actions, h.rawOnly, h.etlOnly, rawThrough, rawThrough, h.etlOnly]
  rcases hraw : rules'.any (·.rawWriteMode = .rawOnly) with _ | _
  · rw [h.output (h.rawOnly.trans hraw)]
  · rfl

/-- The rules that are loaded and apply do with a sample what a rule does with it: none applies, where
the rule does not match, and otherwise those that apply give the orders of the rule. -/
def ActsAlike (r : CompiledRule) (sample : LogEntry) (tag : GoString) : Prop :=
  if matchesEntry p.lib r sample tag then
    p.applied sample tag ≠ [] ∧ SameOrders (p.applied sample tag) [r]
  else p.applied sample tag = []

/-- It is so where the rule itself is what applies. -/
theorem actsAlike_of_applied {r : CompiledRule} {sample : LogEntry} {tag : GoString}
    (h : p.applied sample tag = if matchesEntry p.lib r sample tag then [r] else []) :
    p.ActsAlike r sample tag := by
  rw [ActsAlike, h]
  split_ifs
  · exact ⟨List.cons_ne_nil _ _, rfl, rfl, rfl, fun _ => rfl⟩
  · rfl

theorem shows_holding (st : ExecState) (r : CompiledRule) (sample : LogEntry) (tag : GoString) :
    (p.holding r).shows st sample tag =
      if matchesEntry p.lib r sample tag then (p.endsAs st sample tag [r]).shown tag
      else some ⟨false, rawIndex tag, [], false, none⟩ := by
  rw [shows_eq, applied_holding]
  by_cases hmatch : matchesEntry p.lib r sample tag = true
  · rw [if_pos hmatch, if_pos hmatch, if_neg (List.cons_ne_nil r [])]
    rfl
  · rw [if_neg hmatch, if_neg hmatch, if_pos rfl]

/-- **A pipeline shows what the rule alone shows** if the rules that apply act like it. -/
theorem shows_eq_holding {r : CompiledRule} {sample : LogEntry} {tag : GoString}
    (h : p.ActsAlike r sample tag) (st : ExecState) :
    p.shows st sample tag = (p.holding r).shows st sample tag := by
  rw [ActsAlike] at h
  rw [shows_eq, shows_holding]
  by_cases hmatch : matchesEntry p.lib r sample tag = true
  · rw [if_pos hmatch] at h
    rw [if_pos hmatch, if_neg h.1, p.endsAs_of_sameOrders h.2]
  · rw [if_neg hmatch] at h
    rw [if_neg hmatch, if_pos h]

/-- **What it shows tells whether a rule applies.** -/
theorem matches_iff_of_shows_eq {st : ExecState} {r : CompiledRule} {sample : LogEntry}
    {tag : GoString} (h : p.shows st sample tag = (p.holding r).shows st sample tag) :
    matchesEntry p.lib r sample tag = true ↔ p.applied sample tag ≠ [] := by
  rw [shows_eq, shows_holding] at h
  split_ifs at h with hnone hmatch hmatch
  · exact absurd h.symm (Ending.shown_ne_unmatched tag _ rfl)
  · exact iff_of_false hmatch (not_not_intro hnone)
  · exact iff_of_true hmatch hnone
  · exact absurd h (Ending.shown_ne_unmatched tag _ rfl)

end Pipeline

namespace Service

variable {s : Service} {st : ExecState} {key tag : GoString} {rule : ETLRule} {sample : LogEntry}

/-- **The answer to a test** is what the loaded rules show, whatever the rule is. -/
theorem test_eq_shown (hkey : s.getByKey st.tick key = .ok (some rule)) :
    (s.test st key sample tag).1 = (s.pipeline.shows st sample tag).map .ok := by
  rw [test, hkey, Pipeline.shows, Option.map_map]
  rfl

/-- The test of a rule answers what a test would in the pipeline that holds only that rule. -/
def TestsAlone (s : Service) (st : ExecState) (key : GoString) (rule : ETLRule)
    (sample : LogEntry) (tag : GoString) : Prop :=
  ∀ r, compileRule s.pipeline.lib rule = some r → (s.test st key sample tag).1 =
    ((s.pipeline.holding r).process st sample tag).1.map fun res => .ok res.test

/-- The test of a rule that compiles answers what the rule alone shows. -/
theorem testsAlone_iff_shows (hkey : s.getByKey st.tick key = .ok (some rule)) {r : CompiledRule}
    (hr : compileRule s.pipeline.lib rule = some r) : s.TestsAlone st key rule sample tag ↔
      s.pipeline.shows st sample tag = (s.pipeline.holding r).shows st sample tag := by
  have hok : Function.Injective (Except.ok : TestResult → Except GoString TestResult) :=
    fun _ _ h => Except.ok.inj h
  have halone : (((s.pipeline.holding r).process st sample tag).1.map fun res => .ok res.test) =
      ((s.pipeline.holding r).shows st sample tag).map (.ok : TestResult → Except GoString _) := by
    rw [Pipeline.shows, Option.map_map]
    rfl
  rw [← (Option.map_injective hok).eq_iff, ← test_eq_shown hkey, ← halone]
  refine ⟨fun h => h r hr, fun h r' hr' => ?_⟩
  obtain rfl := Option.some.inj (hr.symm.trans hr')
  exact h

/-- **Testing a rule tests that rule** if the rules that are loaded act like it, and only if one of them
applies exactly where the rule matches. -/
theorem testsAlone_of_actsAlike (hkey : s.getByKey st.tick key = .ok (some rule)) {r : CompiledRule}
    (hr : compileRule s.pipeline.lib rule = some r) (sample : LogEntry) (tag : GoString) :
    (s.pipeline.ActsAlike r sample tag → s.TestsAlone st key rule sample tag) ∧
      (s.TestsAlone st key rule sample tag →
        (matchesEntry s.pipeline.lib r sample tag = true ↔ s.pipeline.applied sample tag ≠ [])) := by
  rw [testsAlone_iff_shows hkey hr]
  exact ⟨fun h => s.pipeline.shows_eq_holding h st, s.pipeline.matches_iff_of_shows_eq⟩

/-! ### A rule that is loaded, and one that is not -/

/-- A rule for every event. -/
def everyRule : ETLRule := { key := str "1", ruleID := str "r" }

/-- A service whose pipeline holds the rules it has loaded. -/
def loadedWith (rules : List CompiledRule) : Service where
  getByKey _ _ := .ok (some everyRule)
  pipeline := { lib := literalLib, rules, executor := none }

/-- The rule is disabled, and so it is not loaded, and nor is any other one: **its test says that it
does not match**. -/
theorem not_testsAlone :
    let s := loadedWith []
    let sample := entryWith (str "t") []
    (s.test ⟨newDeduplicator, 0⟩ (str "1") sample (str "tag")).1.map
        (fun r => r.toOption.map (·.matched)) = some (some false) ∧
      ¬s.TestsAlone ⟨newDeduplicator, 0⟩ (str "1") everyRule sample (str "tag") := by
  refine ⟨by decide +kernel, fun h => ?_⟩
  have hmatched := congrArg (Option.map fun r => r.toOption.map (·.matched))
    (h ((compileRule literalLib everyRule).get (by decide +kernel)) (Option.some_get _).symm)
  exact absurd hmatched (by decide +kernel)

/-- The rule, compiled. -/
def everyRuleCompiled : CompiledRule :=
  (compileRule literalLib everyRule).get (by decide +kernel)

/-- A rule that drops the traffic of firewalls. -/
def firewallRule : CompiledRule :=
  { everyRuleCompiled with
    matchCriteria := { dataset := [str "ngfw_traffic"] }, actions := [⟨.dropEvent, ∅⟩] }

/-- **Where it is loaded, and the other one does not match, its test is that of the rule alone.** -/
theorem testsAlone_loaded : (loadedWith [firewallRule, everyRuleCompiled]).TestsAlone
    ⟨newDeduplicator, 0⟩ (str "1") everyRule (entryWith (str "t") []) (str "tag") := by
  refine (testsAlone_of_actsAlike (r := everyRuleCompiled) rfl (Option.some_get _).symm _ _).1 ?_
  have hfirewall : matchesEntry literalLib firewallRule (entryWith (str "t") []) (str "tag") = false := by
    decide +kernel
  have hevery : matchesEntry literalLib everyRuleCompiled (entryWith (str "t") []) (str "tag") = true := by
    decide +kernel
  have hmode : firewallRule.processingMode = .firstMatch ∧
      everyRuleCompiled.processingMode = .firstMatch := by decide +kernel
  refine Pipeline.actsAlike_of_applied _ ?_
  simp [loadedWith, Pipeline.applied, Pipeline.seqMatched, Pipeline.firstMatched, hfirewall, hevery,
    hmode.1, hmode.2]

end Service

end Etl

end Xsiam
