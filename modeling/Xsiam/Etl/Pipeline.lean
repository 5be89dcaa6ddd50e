import Xsiam.Etl.Match
import Xsiam.Etl.Executor

/-!
# The pipeline

`internal/etl/pipeline.go`: a set of compiled rules applied to an entry that arrived
with a tag, and the routing instructions that come out.

`Process` has two passes that end in the same three ways: a `raw_only` rule returns
before any output is looked at, an action drops the event, or the actions go through
and the sinks of the last rule are resolved on what they left. `Xsiam.Etl.Outcome` is
that ending, `Xsiam.Etl.Pipeline.route` finds it, and `Xsiam.Etl.Outcome.result` is
the `Result` it is returned as.

Resolving the sinks can panic, since the condition of a sink is split on `AND` when it
is evaluated; `Xsiam.Etl.Pipeline.process` returns `none` then.
-/

namespace Xsiam

namespace Etl

open Go

/-! ### Results -/

/-- `SinkResult`: one destination, and the entry to write there. -/
structure SinkResult where
  ngxIndex : GoString
  arangoCollection : GoString
  ttlDays : ℤ
  entry : LogEntry

/-- `Result`: what the caller is told to write. -/
structure Result where
  rawNgxIndex : GoString := []
  etlEntry : Option LogEntry := none
  sinks : List SinkResult := []
  matched : Bool := false
  etlNgxIndex : GoString := []
  arangoCollection : GoString := []
  ttlDays : ℤ := 0

/-! ### Sinks -/

/-- The evaluation of `sink.Condition`; `none` is a panic of the splitter. -/
def sinkMatches (lib : StdLib) (sink : ETLSink) (e : LogEntry) : Option Bool :=
  if sink.condition = [] then some true
  else (parseFilterExpr lib sink.condition).map fun conds => conds.all (·.matches lib e)

/-- One turn of the loop of `resolveSinks`: nothing for a sink that names no
destination or whose condition fails. -/
def resolveSink (lib : StdLib) (e : LogEntry) (sink : ETLSink) : Option (List SinkResult) :=
  if sink.ngxIndex = [] ∧ sink.arangoCollection = [] then some []
  else (sinkMatches lib sink e).map fun ok =>
    if ok then [⟨sink.ngxIndex, sink.arangoCollection, sink.ttlDays, e⟩] else []

/-- The loop of `resolveSinks`. -/
def resolveSinksLoop (lib : StdLib) (e : LogEntry) : List ETLSink → Option (List SinkResult)
  | [] => some []
  | sink :: sinks =>
    match resolveSink lib e sink with
    | none => none
    | some results => (resolveSinksLoop lib e sinks).map (results ++ ·)

/-- `resolveSinks`: the sinks of an output on an entry, the flat fields of an older
rule promoted to one. -/
def resolveSinks (lib : StdLib) (out : ETLOutput) (e : LogEntry) : Option (List SinkResult) :=
  if out.sinks = [] then
    if out.ngxIndex = [] ∧ out.arangoCollection = [] then some []
    else some [⟨out.ngxIndex, out.arangoCollection, out.ttlDays, e⟩]
  else resolveSinksLoop lib e out.sinks

/-- The loop of `fillBackcompat`. -/
def fillBackcompatLoop (res : Result) : List SinkResult → Result
  | [] => res
  | s :: ss =>
    let res := if s.ngxIndex = [] then res else { res with etlNgxIndex := s.ngxIndex }
    let res :=
      if s.arangoCollection = [] then res
      else { res with arangoCollection := s.arangoCollection, ttlDays := s.ttlDays }
    if res.etlNgxIndex ≠ [] ∧ res.arangoCollection ≠ [] then res
    else fillBackcompatLoop res ss

/-- `fillBackcompat` -/
def fillBackcompat (res : Result) : Result := fillBackcompatLoop res res.sinks

/-! ### The pipeline -/

/-- `Pipeline`, with the library its matching runs on. -/
structure Pipeline where
  lib : StdLib
  rules : List CompiledRule
  executor : Option ActionExecutor

/-- The index of the raw event. -/
def rawIndex (tag : GoString) : GoString := str "raw_" ++ tag

/-- How the rules applied to an event end. -/
inductive Outcome where
  /-- No rule matched. -/
  | unmatched
  /-- A `raw_only` rule returned, with the raw index as it then was. -/
  | rawOnly (rawIdx : GoString)
  /-- An action dropped the event. -/
  | dropped
  /-- Every action went through: the raw index, the output of the last rule, and the
  entry its sinks are resolved on. -/
  | done (rawIdx : GoString) (out : ETLOutput) (e : LogEntry)

/-- The `Result` an outcome is returned as. -/
def Outcome.result (lib : StdLib) (tag : GoString) : Outcome → Option Result
  | .unmatched => some { rawNgxIndex := rawIndex tag }
  | .rawOnly rawIdx => some { rawNgxIndex := rawIdx, matched := true }
  | .dropped => some { rawNgxIndex := [], matched := true }
  | .done rawIdx out e => (resolveSinks lib out e).map fun sinks =>
      fillBackcompat { rawNgxIndex := rawIdx, etlEntry := some e, sinks, matched := true }

namespace Pipeline

variable (p : Pipeline)

/-- The actions of a rule. Without an executor only `drop_event` is looked for. -/
def runActions (st : ExecState) (e : LogEntry) (actions : List ETLAction) :
    Option LogEntry × ExecState :=
  match p.executor with
  | some ex => applyActions ex st e actions
  | none => (if actions.any (·.type = .dropEvent) then none else some e, st)

/-- The sequential rules that match, all of them against the entry as it arrived. -/
def seqMatched (entry : LogEntry) (tag : GoString) : List CompiledRule :=
  p.rules.filter fun rule =>
    rule.processingMode = .sequential && matchesEntry p.lib rule entry tag

/-- The raw index after a rule: `etl_only` empties it, and nothing fills it again. -/
def rawAfter (rule : CompiledRule) (rawIdx : GoString) : GoString :=
  if rule.rawWriteMode = .etlOnly then [] else rawIdx

/-- The loop of the sequential pass, over the rules that match. -/
def seqChain (rawIdx : GoString) (lastOut : ETLOutput) (st : ExecState) (current : LogEntry) :
    List CompiledRule → Outcome × ExecState
  | [] => (.done rawIdx lastOut current, st)
  | rule :: rules =>
    let rawIdx := rawAfter rule rawIdx
    if rule.rawWriteMode = .rawOnly then (.rawOnly rawIdx, st)
    else match p.runActions st current rule.actions with
      | (none, st) => (.dropped, st)
      | (some current, st) => seqChain rawIdx rule.output st current rules

/-- What the first-match pass does with the rule that matches. -/
def applyRule (st : ExecState) (entry : LogEntry) (tag : GoString) (rule : CompiledRule) :
    Outcome × ExecState :=
  if rule.rawWriteMode = .rawOnly then (.rawOnly (rawIndex tag), st)
  else
    let rawIdx := if rule.rawWriteMode = .etlOnly then [] else rawIndex tag
    match p.runActions st entry rule.actions with
    | (none, st) => (.dropped, st)
    | (some clone, st) => (.done rawIdx rule.output clone, st)

/-- The loop of the first-match pass. -/
def firstMatch (st : ExecState) (entry : LogEntry) (tag : GoString) :
    List CompiledRule → Outcome × ExecState
  | [] => (.unmatched, st)
  | rule :: rules =>
    if rule.processingMode = .sequential then firstMatch st entry tag rules
    else if !matchesEntry p.lib rule entry tag then firstMatch st entry tag rules
    else p.applyRule st entry tag rule

/-- `Process`, up to its result. -/
def route (st : ExecState) (entry : LogEntry) (tag : GoString) : Outcome × ExecState :=
  if p.seqMatched entry tag ≠ [] then
    p.seqChain (rawIndex tag) {} st entry (p.seqMatched entry tag)
  else p.firstMatch st entry tag p.rules

/-- `Process` -/
def process (st : ExecState) (entry : LogEntry) (tag : GoString) : Option Result × ExecState :=
  ((p.route st entry tag).1.result p.lib tag, (p.route st entry tag).2)

end Pipeline

/-! ### What resolving the sinks gives -/

/-- The fields `fillBackcompat` fills are the flat ones. -/
theorem fillBackcompatLoop_frame (ss : List SinkResult) : ∀ res : Result,
    (fillBackcompatLoop res ss).rawNgxIndex = res.rawNgxIndex ∧
      (fillBackcompatLoop res ss).etlEntry = res.etlEntry ∧
      (fillBackcompatLoop res ss).sinks = res.sinks := by
  induction ss with
  | nil => intro res; exact ⟨rfl, rfl, rfl⟩
  | cons s ss ih =>
    intro res
    simp only [fillBackcompatLoop]
    split_ifs <;> first | exact ⟨rfl, rfl, rfl⟩ | exact ih _

@[simp] theorem fillBackcompat_rawNgxIndex (res : Result) :
    (fillBackcompat res).rawNgxIndex = res.rawNgxIndex :=
  (fillBackcompatLoop_frame _ res).1

@[simp] theorem fillBackcompat_etlEntry (res : Result) :
    (fillBackcompat res).etlEntry = res.etlEntry :=
  (fillBackcompatLoop_frame _ res).2.1

@[simp] theorem fillBackcompat_sinks (res : Result) :
    (fillBackcompat res).sinks = res.sinks :=
  (fillBackcompatLoop_frame _ res).2.2

theorem resolveSink_entry {lib : StdLib} {e : LogEntry} {sink : ETLSink} {rs : List SinkResult}
    (h : resolveSink lib e sink = some rs) : ∀ r ∈ rs, r.entry = e := by
  rw [resolveSink] at h
  split_ifs at h with h0
  · obtain rfl := Option.some.inj h
    simp
  · obtain ⟨ok, -, rfl⟩ := Option.map_eq_some_iff.mp h
    rcases ok with _ | _ <;> simp

theorem resolveSinksLoop_entry {lib : StdLib} {e : LogEntry} {sinks : List ETLSink} :
    ∀ {rs : List SinkResult}, resolveSinksLoop lib e sinks = some rs → ∀ r ∈ rs, r.entry = e := by
  induction sinks with
  | nil =>
    intro rs h
    obtain rfl := Option.some.inj h
    simp
  | cons sink sinks ih =>
    intro rs h r hr
    rw [resolveSinksLoop] at h
    split at h
    · exact absurd h (by simp)
    · next results hres =>
      obtain ⟨rest, hrest, rfl⟩ := Option.map_eq_some_iff.mp h
      rcases List.mem_append.mp hr with hr | hr
      · exact resolveSink_entry hres r hr
      · exact ih hrest r hr

/-- **Every sink is resolved on the processed entry**, never on another one. -/
theorem resolveSinks_entry {lib : StdLib} {out : ETLOutput} {e : LogEntry}
    {rs : List SinkResult} (h : resolveSinks lib out e = some rs) : ∀ r ∈ rs, r.entry = e := by
  rw [resolveSinks] at h
  split_ifs at h
  · obtain rfl := Option.some.inj h
    simp
  · obtain rfl := Option.some.inj h
    simp
  · exact resolveSinksLoop_entry h

/-- A result without a processed entry has no sinks. -/
theorem Pipeline.sinks_of_etlEntry_none (p : Pipeline) {st : ExecState} {entry : LogEntry}
    {tag : GoString} {res : Result} (h : (p.process st entry tag).1 = some res)
    (hnone : res.etlEntry = none) : res.sinks = [] := by
  change (p.route st entry tag).1.result p.lib tag = some res at h
  cases hroute : (p.route st entry tag).1 with
  | done rawIdx out e =>
    rw [hroute] at h
    obtain ⟨sinks, -, rfl⟩ := Option.map_eq_some_iff.mp h
    simp at hnone
  | _ =>
    rw [hroute] at h
    obtain rfl := Option.some.inj h
    rfl

end Etl

end Xsiam
