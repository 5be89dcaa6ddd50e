import Xsiam.Etl.Pipeline

/-!
# The rules that apply, as a list

`Xsiam.Etl.Pipeline.route` walks through rules and actions at once. For the statements
about whole pipelines the two are taken apart (`Xsiam.Etl.Pipeline.route_eq`): which
rules apply is decided by the arriving entry alone, and what they do is the list of
all their actions, run once.
-/

namespace Xsiam

namespace Etl

open Go

namespace Pipeline

variable (p : Pipeline)

/-- The rules up to the first `raw_only` one, and that one. -/
def throughRawOnly : List CompiledRule → List CompiledRule
  | [] => []
  | rule :: rules => if rule.rawWriteMode = .rawOnly then [rule] else rule :: throughRawOnly rules

/-- The first-match rules that match. -/
def firstMatched (entry : LogEntry) (tag : GoString) : List CompiledRule :=
  p.rules.filter fun rule =>
    rule.processingMode ≠ .sequential && matchesEntry p.lib rule entry tag

/-- The rules that apply to an entry: the sequential ones that match, up to a `raw_only`
one, or else the first other one that matches. -/
def applied (entry : LogEntry) (tag : GoString) : List CompiledRule :=
  if p.seqMatched entry tag ≠ [] then throughRawOnly (p.seqMatched entry tag)
  else (p.firstMatched entry tag).take 1

/-- The rules whose actions run: a `raw_only` rule returns before its own. -/
def acting (rules : List CompiledRule) : List CompiledRule :=
  rules.filter fun rule => rule.rawWriteMode ≠ .rawOnly

/-- All the actions an entry meets, in order. -/
def appliedActions (entry : LogEntry) (tag : GoString) : List ETLAction :=
  (acting (p.applied entry tag)).flatMap (·.actions)

/-- The raw index a list of rules leaves. -/
def rawThrough (rawIdx : GoString) (rules : List CompiledRule) : GoString :=
  if rules.any (·.rawWriteMode = .etlOnly) then [] else rawIdx

/-- The output of the last rule of a list. -/
def lastOutput (dflt : ETLOutput) (rules : List CompiledRule) : ETLOutput :=
  ((rules.getLast?).map (·.output)).getD dflt

/-- The ending of rules whose actions all went through. -/
def ending (rawIdx : GoString) (lastOut : ETLOutput) (rules : List CompiledRule) (e : LogEntry) :
    Outcome :=
  if rules.any (·.rawWriteMode = .rawOnly) then .rawOnly (rawThrough rawIdx rules)
  else .done (rawThrough rawIdx rules) (lastOutput lastOut rules) e

/-- Run the actions of rules, and end as those rules end. -/
def finish (rawIdx : GoString) (lastOut : ETLOutput) (rules : List CompiledRule) :
    Option LogEntry × ExecState → Outcome × ExecState
  | (none, st) => (.dropped, st)
  | (some e, st) => (ending rawIdx lastOut rules e, st)

@[simp] theorem runActions_nil (st : ExecState) (e : LogEntry) :
    p.runActions st e [] = (some e, st) := by
  unfold runActions
  split <;> rfl

theorem applyActions_append (ex : ActionExecutor) (as bs : List ETLAction) :
    ∀ (st : ExecState) (e : LogEntry), applyActions ex st e (as ++ bs) =
      match applyActions ex st e as with
      | (none, st) => (none, st)
      | (some e, st) => applyActions ex st e bs := by
  induction as with
  | nil => intro st e; rfl
  | cons a as ih =>
    intro st e
    simp only [List.cons_append, applyActions]
    split
    · rfl
    · exact ih _ _

/-- The actions of two rules in a row are the actions of one longer rule. -/
theorem runActions_append (st : ExecState) (e : LogEntry) (as bs : List ETLAction) :
    p.runActions st e (as ++ bs) =
      match p.runActions st e as with
      | (none, st) => (none, st)
      | (some e, st) => p.runActions st e bs := by
  unfold runActions
  rcases p.executor with _ | ex
  · rcases has : as.any (·.type = .dropEvent) with _ | _ <;> simp [List.any_append, has]
  · exact applyActions_append ex as bs st e

theorem rawThrough_cons (rawIdx : GoString) (rule : CompiledRule) (rules : List CompiledRule) :
    rawThrough rawIdx (rule :: rules) = rawThrough (rawAfter rule rawIdx) rules := by
  unfold rawThrough rawAfter
  by_cases h : rule.rawWriteMode = .etlOnly <;> simp [h]

theorem lastOutput_cons (lastOut : ETLOutput) (rule : CompiledRule) (rules : List CompiledRule) :
    lastOutput lastOut (rule :: rules) = lastOutput rule.output rules := by
  unfold lastOutput
  rw [List.getLast?_cons]
  rcases rules.getLast? with _ | _ <;> rfl

theorem ending_cons {rule : CompiledRule} (h : rule.rawWriteMode ≠ .rawOnly) (rawIdx : GoString)
    (lastOut : ETLOutput) (rules : List CompiledRule) (e : LogEntry) :
    ending rawIdx lastOut (rule :: rules) e =
      ending (rawAfter rule rawIdx) rule.output rules e := by
  unfold ending
  rw [rawThrough_cons, lastOutput_cons, List.any_cons, decide_eq_false h, Bool.false_or]

theorem finish_cons {rule : CompiledRule} (h : rule.rawWriteMode ≠ .rawOnly) (rawIdx : GoString)
    (lastOut : ETLOutput) (rules : List CompiledRule) (r : Option LogEntry × ExecState) :
    finish rawIdx lastOut (rule :: rules) r =
      finish (rawAfter rule rawIdx) rule.output rules r := by
  obtain ⟨_ | e, st⟩ := r
  · rfl
  · exact congrArg (·, st) (ending_cons h rawIdx lastOut rules e)

/-- The sequential pass runs the actions of the rules up to the first `raw_only` one. -/
theorem seqChain_eq (rules : List CompiledRule) : ∀ (rawIdx : GoString) (lastOut : ETLOutput)
    (st : ExecState) (e : LogEntry), p.seqChain rawIdx lastOut st e rules =
      finish rawIdx lastOut (throughRawOnly rules)
        (p.runActions st e ((acting (throughRawOnly rules)).flatMap (·.actions))) := by
  induction rules with
  | nil =>
    intro rawIdx lastOut st e
    simp [seqChain, throughRawOnly, acting, finish, ending, rawThrough, lastOutput]
  | cons rule rules ih =>
    intro rawIdx lastOut st e
    by_cases h : rule.rawWriteMode = .rawOnly
    · simp [seqChain, throughRawOnly, acting, finish, ending, rawThrough, rawAfter, h]
    · simp only [seqChain, throughRawOnly, if_neg h]
      rw [finish_cons h, acting, List.filter_cons_of_pos (by simpa using h), List.flatMap_cons,
        runActions_append]
      rcases p.runActions st e rule.actions with ⟨_ | e', st'⟩
      · rfl
      · exact ih (rawAfter rule rawIdx) rule.output st' e'

/-- The first-match pass takes the first rule of its own that matches. -/
theorem firstMatch_eq (st : ExecState) (entry : LogEntry) (tag : GoString)
    (rules : List CompiledRule) : p.firstMatch st entry tag rules =
      match rules.filter (fun rule =>
        rule.processingMode ≠ .sequential && matchesEntry p.lib rule entry tag) with
      | [] => (.unmatched, st)
      | rule :: _ => p.applyRule st entry tag rule := by
  induction rules with
  | nil => rfl
  | cons rule rules ih =>
    rw [firstMatch]
    by_cases hseq : rule.processingMode = .sequential
    · rw [if_pos hseq, ih, List.filter_cons_of_neg (by simp [hseq])]
    · rcases hm : matchesEntry p.lib rule entry tag with _ | _
      · rw [if_neg hseq, Bool.not_false, if_pos rfl, ih, List.filter_cons_of_neg (by simp [hm])]
      · rw [if_neg hseq, List.filter_cons_of_pos (by simp [hseq, hm])]
        rfl

theorem applyRule_eq (st : ExecState) (entry : LogEntry) (tag : GoString) (rule : CompiledRule) :
    p.applyRule st entry tag rule =
      finish (rawIndex tag) {} [rule]
        (p.runActions st entry ((acting [rule]).flatMap (·.actions))) := by
  by_cases h : rule.rawWriteMode = .rawOnly
  · simp [applyRule, acting, finish, ending, rawThrough, h]
  · rw [applyRule, if_neg h, acting, List.filter_cons_of_pos (by simpa using h), finish_cons h]
    simp only [List.filter_nil, List.flatMap_cons, List.flatMap_nil, List.append_nil]
    rcases p.runActions st entry rule.actions with ⟨_ | e, st'⟩ <;> rfl

/-- **What `Process` does**, in two steps: which rules apply is read off the arriving
entry, and all their actions are run as one list. -/
theorem route_eq (st : ExecState) (entry : LogEntry) (tag : GoString) :
    p.route st entry tag =
      if p.applied entry tag = [] then (.unmatched, st)
      else finish (rawIndex tag) {} (p.applied entry tag)
        (p.runActions st entry (p.appliedActions entry tag)) := by
  rw [route, applied, appliedActions, applied]
  by_cases hseq : p.seqMatched entry tag = []
  · simp only [hseq, ne_eq, not_true_eq_false, if_false]
    rw [firstMatch_eq]
    change (match p.firstMatched entry tag with
      | [] => _
      | rule :: _ => p.applyRule st entry tag rule) = _
    rcases p.firstMatched entry tag with _ | ⟨rule, rules⟩
    · rfl
    · exact p.applyRule_eq st entry tag rule
  · simp only [ne_eq, hseq, not_false_eq_true, if_true]
    rw [seqChain_eq, if_neg]
    rcases hs : p.seqMatched entry tag with _ | ⟨rule, rules⟩
    · exact absurd hs hseq
    · rw [throughRawOnly]
      split_ifs <;> simp

theorem finish_snd (rawIdx : GoString) (lastOut : ETLOutput) (rules : List CompiledRule)
    (r : Option LogEntry × ExecState) : (finish rawIdx lastOut rules r).2 = r.2 := by
  obtain ⟨_ | e, st⟩ := r <;> rfl

/-- The state that `Process` leaves is the one the actions leave. -/
theorem route_snd (st : ExecState) (entry : LogEntry) (tag : GoString) :
    (p.route st entry tag).2 = (p.runActions st entry (p.appliedActions entry tag)).2 := by
  rw [route_eq]
  split_ifs with h0
  · have hnone : p.appliedActions entry tag = [] := by simp [appliedActions, acting, h0]
    rw [hnone, runActions_nil]
  · exact finish_snd ..

theorem runActions_of_some {ex : ActionExecutor} (h : p.executor = some ex) (st : ExecState)
    (e : LogEntry) (actions : List ETLAction) :
    p.runActions st e actions = applyActions ex st e actions := by
  rw [runActions, h]

theorem runActions_of_none (h : p.executor = none) (st : ExecState) (e : LogEntry)
    (actions : List ETLAction) : (p.runActions st e actions).2 = st := by
  rw [runActions, h]

end Pipeline

/-! ### Rules without criteria -/

/-- A compiled rule that matches every entry. -/
def openRule (mode : ProcessingMode) (raw : RawWriteMode) (actions : List ETLAction)
    (output : ETLOutput) : CompiledRule :=
  { ruleID := [], processingMode := mode, rawWriteMode := raw, actions, output
    tagGlob := [], filterConds := [], filterOrMode := false }

/-- An action with text parameters. -/
def textAction (type : ETLActionType) (params : List (String × String)) : ETLAction :=
  ⟨type, GoMap.insertAll ∅ (params.map fun kv => (str kv.1, .str (str kv.2)))⟩

/-- An entry of a tenant with nothing in it but some fields. -/
def entryWith (tenantID : GoString) (kvs : List (GoString × Value)) : LogEntry :=
  { tenantID, dataset := datasetEndpoint, kind := logKindSyslog, agentID := [], sessionID := []
    hostname := [], sourceIP := [], fields := GoMap.insertAll ∅ kvs, rawLog := []
    eventTimestamp := 0, ingestedAt := 0 }

/-- An executor with no repositories and no script engine. -/
def plainExecutor : ActionExecutor where
  lib := literalLib
  randPercent _ := ⟨0⟩
  now _ := 0

end Etl

end Xsiam
