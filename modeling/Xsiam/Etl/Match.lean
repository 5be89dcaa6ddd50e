import Xsiam.Etl.Model

/-!
# Matching: filter expressions and compiled rules

`internal/etl/match.go`. A filter expression is split on `" AND "`, each part is
parsed into a condition, and a rule whose criteria are compiled that way is tested
against an entry.

The splitter can run out of its string: it looks for the separator in the
lower-cased expression and slices the original one at the offsets it finds. Where
the slice is out of range the source panics, and the functions that call the
splitter return `none` here.
-/

namespace Xsiam

namespace Etl

open Go

/-! ### Field values -/

/-- `kindName`: like `model.KindName`, but a kind past the last one is its number. -/
def kindName (k : UInt8) : GoString := (kindNames[k.toNat]?).getD (str (toString k.toNat))

/-- `fieldStr`: the value of a field for the matcher. Some names stand for members of
the entry, in any letter case; every other one is looked up in `Fields`. -/
def fieldStr (lib : StdLib) (e : LogEntry) (field : GoString) : GoString :=
  let f := toLower field
  if f = str "hostname" then e.hostname
  else if f = str "agent_id" then e.agentID
  else if f = str "src_ip" ∨ f = str "source_ip" then e.sourceIP
  else if f = str "session_id" then e.sessionID
  else if f = str "dataset" then e.dataset
  else if f = str "kind" then kindName e.kind
  else if f = str "tenant_id" then e.tenantID
  else match e.fields[field]? with
    | some v => lib.sprint v
    | none => []

/-! ### Conditions -/

/-- `filterOp`. -/
inductive FilterOp where
  | equal
  | notEqual
  | regex
  | greater
  | less
  | greaterEqual
  | lessEqual
deriving DecidableEq

/-- The text of an operator. -/
def FilterOp.text : FilterOp → GoString
  | .equal => str "="
  | .notEqual => str "!="
  | .regex => str "~="
  | .greater => str ">"
  | .less => str "<"
  | .greaterEqual => str ">="
  | .lessEqual => str "<="

/-- `filterCondition`: a parsed condition. Only a regular expression is compiled. -/
structure FilterCondition where
  field : GoString
  op : FilterOp
  value : GoString
  compiled : Option Regexp

/-- The numeric comparison of an operator. -/
def FilterOp.compare : FilterOp → Float64 → Float64 → Bool
  | .greater, l, r => r.lt l
  | .less, l, r => l.lt r
  | .greaterEqual, l, r => r.le l
  | .lessEqual, l, r => l.le r
  | _, _, _ => false

/-- `filterCondition.matches`. -/
def FilterCondition.matches (lib : StdLib) (c : FilterCondition) (e : LogEntry) : Bool :=
  let raw := fieldStr lib e c.field
  match c.op with
  | .equal => raw = c.value
  | .notEqual => raw ≠ c.value
  | .regex => match c.compiled with
    | none => false
    | some re => re.matchString raw
  | op => match lib.parseFloat raw, lib.parseFloat c.value with
    | some l, some r => op.compare l r
    | _, _ => false

/-! ### Splitting on AND -/

/-- The separator the splitter looks for in the lower-cased expression. -/
def andSep : GoString := str " and "

theorem andSep_length : andSep.length = 5 := by decide

/-- A match of the separator leaves less to search. -/
theorem length_drop_of_index_andSep {lower : GoString} {i : ℕ}
    (h : index andSep lower = some i) : (lower.drop (i + 5)).length < lower.length := by
  have hlen := (index_eq_some h).1
  rw [andSep_length] at hlen
  rw [List.length_drop]
  omega

/-- The loop of `splitAND`, from the offset `start`: `none` is a slice out of range.
The offset moves through `lower` and `expr` alike. -/
def splitANDLoop (expr lower : GoString) (start : ℕ) : Option (List GoString) :=
  match _ : index andSep (lower.drop start) with
  | none => if start ≤ expr.length then some [expr.drop start] else none
  | some idx =>
    if start + idx ≤ expr.length then
      (splitANDLoop expr lower (start + idx + 5)).map
        (((expr.take (start + idx)).drop start) :: ·)
    else none
termination_by lower.length - start
decreasing_by
  have hlen := length_drop_of_index_andSep ‹_›
  simp only [List.length_drop] at hlen
  omega

/-- `splitAND`: split an expression on `" AND "`, in any letter case. -/
def splitAND (expr : GoString) : Option (List GoString) := splitANDLoop expr (toLower expr) 0

/-! ### Parsing -/

/-- The operators in the order `parseCondition` tries them. -/
def conditionOps : List FilterOp :=
  [.greaterEqual, .lessEqual, .notEqual, .regex, .greater, .less, .equal]

/-- `parseCondition`, from an operator on: `none` is an error return. -/
def parseConditionFrom (lib : StdLib) (s : GoString) : List FilterOp → Option FilterCondition
  | [] => none
  | op :: ops =>
    match index op.text s with
    | none => parseConditionFrom lib s ops
    | some idx =>
      let field := trimSpace (s.take idx)
      let value := trim (trimSpace (s.drop (idx + op.text.length))) (str "\"'")
      if idx = 0 ∨ field = [] then parseConditionFrom lib s ops
      else match op with
        | .regex => (lib.regexpCompile value).map fun re =>
            { field, op, value, compiled := some re }
        | _ => some { field, op, value, compiled := none }

/-- `parseCondition`: a single `field op value`. -/
def parseCondition (lib : StdLib) (s : GoString) : Option FilterCondition :=
  parseConditionFrom lib s conditionOps

/-- `parseFilterExpr`: the conditions of an expression, those that do not parse left
out. `none` is the panic of the splitter. -/
def parseFilterExpr (lib : StdLib) (expr : GoString) : Option (List FilterCondition) :=
  let expr := trimSpace expr
  if expr = [] then some []
  else (splitAND expr).map fun parts =>
    ((parts.map trimSpace).filter (· ≠ [])).filterMap (parseCondition lib)

/-! ### Compiled rules -/

/-- `compiledRule`: a rule with its match expressions parsed. -/
structure CompiledRule extends ETLRule where
  tagGlob : GoString
  filterConds : List FilterCondition
  filterOrMode : Bool

/-- Whether the filter conditions of a rule let an entry through: any of them in `or`
mode, all of them otherwise. -/
def filterMatches (lib : StdLib) (r : CompiledRule) (e : LogEntry) : Bool :=
  if r.filterConds = [] then true
  else if r.filterOrMode then r.filterConds.any (·.matches lib e)
  else r.filterConds.all (·.matches lib e)

/-- `matchesEntry`: whether a rule applies to an entry that arrived with a tag. -/
def matchesEntry (lib : StdLib) (r : CompiledRule) (e : LogEntry) (tag : GoString) : Bool :=
  (r.matchCriteria.dataset = [] || r.matchCriteria.dataset.contains e.dataset) &&
  (r.matchCriteria.kind = [] || r.matchCriteria.kind.contains e.kind) &&
  (r.tagGlob = [] || lib.pathMatch r.tagGlob tag = some true) &&
  filterMatches lib r e

/-- The tag glob of a rule: one that `path.Match` rejects becomes the empty one, which
matches every tag. -/
def compileGlob (lib : StdLib) (pattern : GoString) : GoString :=
  if pattern ≠ [] ∧ (lib.pathMatch pattern []).isSome then pattern else []

/-- The output of a rule: one with neither flat field gets a default index. -/
def compileOutput (r : ETLRule) : ETLOutput :=
  if r.output.ngxIndex = [] ∧ r.output.arangoCollection = [] then
    { r.output with ngxIndex := str "etl_" ++ r.ruleID }
  else r.output

/-- `compileRule`. -/
def compileRule (lib : StdLib) (r : ETLRule) : Option CompiledRule :=
  (parseFilterExpr lib r.matchCriteria.filterExpr).map fun conds =>
    { toETLRule := { r with
        rawWriteMode := if r.rawWriteMode = .unset then .both else r.rawWriteMode
        output := compileOutput r }
      tagGlob := compileGlob lib r.matchCriteria.tagPattern
      filterConds := conds
      filterOrMode := toLower r.matchCriteria.filterMode = str "or" }

end Etl

end Xsiam
