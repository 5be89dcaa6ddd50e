import Xsiam.Audit.Records

/-!
# Executions

`ActionService.Execute` and `PlaybookService.Execute` of `internal/domain/response`, as programs on
the database, with what carries them out (`Xsiam.Response.Executor`), of which the program has a
stub. The document of an action or of a playbook is read once, and written when the execution
begins and when it ends.
-/

namespace Xsiam

namespace Response

open Go Repository

/-! ### What carries out -/

/-- `ExecutionResult` -/
structure ExecutionResult where
  success : Bool
  executionID : GoString
  message : GoString
  detail : List (GoString × Value)
deriving DecidableEq

/-- A result as it is recorded. -/
def ExecutionResult.value (r : ExecutionResult) : Value :=
  .obj [(str "detail", .obj r.detail), (str "execution_id", .str r.executionID),
    (str "message", .str r.message), (str "success", .bool r.success)]

/-- `Executor`: what `Execute` makes of a type, a target and parameters, which is a result, perhaps
nil, and an error, perhaps nil. -/
abbrev Executor := GoString → GoString → Value → Option ExecutionResult × Option GoString

/-- `ExecutionClient.Execute` -/
def executionClient (now : Time) : Executor := fun actionType _ _ =>
  (some {
    success := true
    executionID := str "EXEC-" ++ str (toString (now / 10 ^ 6))
    message := str "[STUB] " ++ actionType ++ str " 已提交（未实际联动设备）"
    detail := [(str "action_type", .str actionType), (str "stub", .bool true)] }, none)

/-! ### Documents -/

/-- The fields of `model.Action`. -/
def actionFields : Fields :=
  [(str "_key", .text), (str "tenant_id", .text), (str "type", .text), (str "target_type", .text),
    (str "target_asset_id", .text), (str "target_value", .text), (str "incident_id", .text),
    (str "triggered_by", .text), (str "status", .text), (str "requires_approval", .flag),
    (str "approved_by", .text), (str "approved_at", .time), (str "started_at", .time),
    (str "completed_at", .time), (str "result_summary", .text), (str "result_detail", .map .any),
    (str "execution_id", .text), (str "params", .map .any), (str "created_at", .time),
    (str "updated_at", .time), (str "name", .text), (str "description", .text),
    (str "result", .text)]

/-- The fields of `model.Playbook`. -/
def playbookFields : Fields :=
  [(str "_key", .text), (str "tenant_id", .text), (str "name", .text), (str "description", .text),
    (str "trigger", .record [(str "type", .text), (str "conditions", .map .any),
      (str "cron_expr", .text)]),
    (str "canvas", .record [
      (str "nodes", .list (.record [(str "id", .text), (str "type", .text), (str "label", .text),
        (str "config", .map .any), (str "position", .map .float)])),
      (str "edges", .list (.record [(str "id", .text), (str "source", .text),
        (str "target", .text), (str "label", .text)]))]),
    (str "is_enabled", .flag), (str "run_count", .int), (str "last_run_at", .time),
    (str "created_by", .text), (str "created_at", .time), (str "updated_at", .time),
    (str "trigger_type", .text), (str "status", .text), (str "last_run", .text)]

/-- `PlaybookNodeResult` -/
structure PlaybookNodeResult where
  nodeID : GoString
  type : GoString
  label : GoString
  status : GoString
  message : GoString
deriving DecidableEq

/-- `PlaybookExecResult` -/
structure PlaybookExecResult where
  status : GoString
  playbookID : GoString
  executionID : GoString
  startedAt : Time
  completedAt : Time
  nodeResults : List PlaybookNodeResult
deriving DecidableEq

/-- A member of a value that is an object. -/
def member (v : Value) (name : String) : Value :=
  match v with
  | .obj kvs => entryValue kvs (str name)
  | _ => .null

/-- The nodes on the canvas of a playbook. -/
def nodesOf (pb : Document) : List Value :=
  match member (pb.get (str "canvas")) "nodes" with
  | .arr vs => vs
  | _ => []

/-- A node that was executed. -/
def nodeResult (node : Value) : PlaybookNodeResult :=
  let text (name : String) : GoString := Document.valueText (member node name)
  { nodeID := text "id"
    type := text "type"
    label := text "label"
    status := str "completed"
    message := str "[STUB] node " ++ text "label" ++ str " (" ++ text "type" ++ str ") executed" }

/-! ### Executions -/

section Programs

variable (times : TimeFormat) (now : Time) (exec : Executor)

/-- What is written when an action ends. -/
def completedPatch (result : ExecutionResult) : Document :=
  Document.ofEntries [
    ("status", .str (if result.success then str "completed" else str "failed")),
    ("completed_at", .str (times.text now)), ("result_summary", .str result.message),
    ("result_detail", .obj result.detail), ("execution_id", .str result.executionID)]

/-- `ActionService.Execute` -/
def executeAction (id operatorID : GoString) : DB (Except GoString Unit) := do
  match ← getByKey times actionFields .actions "action" id [] with
  | .error msg => pure (.error msg)
  | .ok action => do
    let _ ← patchByKey times now .actions id
      (Document.ofEntries [("status", .str (str "running")), ("started_at", .str (times.text now))]) [0]
    match (exec (action.text (str "type")) (action.text (str "target_asset_id")) .null).1 with
    | none => .crash
    | some result => do
      let _ ← patchByKey times now .actions id (completedPatch times now result) [1]
      Audit.record times now
        (Audit.executed operatorID "action" id (action.text (str "type")) result.value)
      pure (.ok ())

/-- The number of runs after one more, in 64 bits. -/
def nextRun (pb : Document) : ℤ := (pb.int (str "run_count") + 1).bmod (2 ^ 64)

/-- What is written when a playbook ends. -/
def playbookPatch (pb : Document) : Document :=
  Document.ofEntries [("status", .str (str "completed")), ("last_run_at", .str (times.text now)),
    ("run_count", .int .int64 (nextRun pb))]

/-- `PlaybookService.Execute` -/
def executePlaybook (key operatorID : GoString) : DB (Except GoString PlaybookExecResult) := do
  match ← getByKey times playbookFields .playbooks "playbook" key [] with
  | .error msg => pure (.error msg)
  | .ok pb => do
    let _ ← patchByKey times now .playbooks key
      (Document.ofEntries [("status", .str (str "running"))]) [0]
    let params := Value.obj [(str "canvas", pb.get (str "canvas"))]
    match exec (str "playbook_execute") (pb.text keyName) params with
    | (_, some msg) => do
      let _ ← patchByKey times now .playbooks key
        (Document.ofEntries [("status", .str (str "failed"))]) [1]
      pure (.error msg)
    | (result, none) => do
      let _ ← patchByKey times now .playbooks key (playbookPatch times now pb) [2]
      Audit.record times now (Audit.executed operatorID "playbook" key (pb.text (str "name"))
        ((result.map ExecutionResult.value).getD .null))
      match result with
      | none => .crash
      | some result => pure (.ok {
          status := str "completed"
          playbookID := pb.text keyName
          executionID := result.executionID
          startedAt := now
          completedAt := now
          nodeResults := (nodesOf pb).map nodeResult })

end Programs

end Response

end Xsiam
