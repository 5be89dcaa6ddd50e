import Xsiam.Repository.Calls
import Xsiam.Repository.LogEntries

/-!
# The audit log

`AuditLogRepo` of `internal/repository/audit_log.go`, with `internal/svc/audit`. What is recorded is
written as a document of its own, and whether that succeeds nobody asks. The service is told the
tenant of what it records, and the repository is not.
-/

namespace Xsiam

namespace Audit

open Go Repository

/-! ### Records -/

/-- What is recorded of an operation: the arguments of `AuditLogRepo.Record`. -/
structure Entry where
  operatorID : GoString
  action : GoString
  resourceType : GoString
  resourceID : GoString
  resourceName : GoString
  oldValue : Value := .null
  newValue : Value := .null
deriving DecidableEq

/-- A document as a value, as it is recorded. -/
def valueOf (d : Document) : Value := .obj d.toList

/-- The record of a new document. -/
def created (operatorID : GoString) (resourceType : String) (key name : GoString) (doc : Document) :
    Entry where
  operatorID
  action := str "create"
  resourceType := str resourceType
  resourceID := key
  resourceName := name
  newValue := valueOf (withKey key doc)

/-- The record of an execution. -/
def executed (operatorID : GoString) (resourceType : String) (key name : GoString) (result : Value) :
    Entry where
  operatorID
  action := str "execute"
  resourceType := str resourceType
  resourceID := key
  resourceName := name
  newValue := result

section Programs

variable (times : TimeFormat) (now : Time)

/-- The attributes of `model.AuditLog` as they are written. `Record` sets some of them only. -/
def Entry.entries (e : Entry) : List (String × Value) :=
  ("tenant_id", .str []) :: ("operator_id", .str e.operatorID) :: ("operator_name", .str []) ::
    ("action", .str e.action) :: ("resource", .str []) :: ("resource_type", .str e.resourceType) ::
    ("resource_id", .str e.resourceID) :: ("resource_name", .str e.resourceName) ::
    ("old_value", e.oldValue) :: ("new_value", e.newValue) :: ("detail", .null) ::
    ("ip_address", .str []) :: ("user_agent", .str []) :: [("created_at", .str (times.text now))]

/-- A record as it is written to a document. -/
def Entry.document (e : Entry) : Document := Document.ofEntries (e.entries times now)

/-- `AuditLogRepo.Record` -/
def record (e : Entry) : DB Unit := do
  match ← createDoc .auditLogs [] (e.document times now) [] with
  | .error _ => pure ()
  | .ok _ => pure ()

/-- `Service.Record` of `internal/svc/audit` -/
def serviceRecord (_tenantID : GoString) (e : Entry) : DB Unit := record times now e

/-- The body of a request to record something. -/
structure RecordBody where
  tenantID : GoString := []
  entry : Entry

/-- `Handler.Record` -/
def handleRecord (body : RecordBody) : DB Unit := serviceRecord times now body.tenantID body.entry

end Programs

theorem Entry.get_document {times : TimeFormat} {now : Time} {e : Entry} {name : String} {v : Value}
    (h : (name, v) ∈ e.entries times now) : (e.document times now).get (str name) = v := by
  refine Document.get_ofEntries ?_ h
  have hnames : ["tenant_id", "operator_id", "operator_name", "action", "resource", "resource_type",
      "resource_id", "resource_name", "old_value", "new_value", "detail", "ip_address", "user_agent",
      "created_at"].Nodup := by decide
  exact hnames

/-- A record that is written is a new document of the log. -/
theorem allSucceed_record {times : TimeFormat} {now : Time} {answers : Call → Answer} {db : DocStore}
    {α : Type} {e : Entry} {f : Unit → DB α}
    (h : AllSucceed answers (record times now e >>= f) db) :
    ∃ k, (db .auditLogs)[k]? = none ∧
      AllSucceed answers (f ())
        (db.set .auditLogs ((db .auditLogs).insert k (ownAttributes (e.document times now)))) ∧
      Prog.run (serveAll answers) (record times now e >>= f) db = Prog.run (serveAll answers) (f ())
        (db.set .auditLogs ((db .auditLogs).insert k (ownAttributes (e.document times now)))) := by
  obtain ⟨hnone, hrest, hrun⟩ := AllSucceed.createDoc
    (f := fun r => (match r with | .error _ => pure () | .ok _ => pure ()) >>= f) h rfl
  exact ⟨_, hnone, hrest, hrun⟩

/-! ### Lists -/

/-- `AuditLogListFilter`, with whatever times are. -/
structure ListFilter (τ : Type) where
  tenantID : GoString
  operatorID : GoString := []
  fromTime : Option τ := none
  toTime : Option τ := none
  page : ℤ := 0
  pageSize : ℤ := 0

/-- The options `AuditLogRepo.List` hands to `FindPaged`. -/
def ListFilter.toList {τ : Type} (timeText : τ → GoString) (f : ListFilter τ) :
    ListOptions Document where
  collection := str "audit_logs"
  filters :=
    tenantFilter (fun d => d.text (str "tenant_id")) f.tenantID ++
      equalFilter "doc.operator_id == @operatorID" (f.operatorID ≠ [])
        (fun d => d.get (str "operator_id") = .str f.operatorID) ++
      equalFilter "doc.created_at >= @from" f.fromTime.isSome
        (fun d => f.fromTime.any fun t => atLeast (d.get (str "created_at")) (timeText t)) ++
      equalFilter "doc.created_at <= @to" f.toTime.isSome
        (fun d => f.toTime.any fun t => atMost (d.get (str "created_at")) (timeText t))
  bindVars :=
    bindIf "to" f.toTime.isSome (.str ((f.toTime.map timeText).getD [])) <|
      bindIf "from" f.fromTime.isSome (.str ((f.fromTime.map timeText).getD [])) <|
      bindIf "operatorID" (f.operatorID ≠ []) (.str f.operatorID) <|
      bindIf "tenantID" (f.tenantID ≠ []) (.str f.tenantID) ∅
  sortBy := str "created_at"
  sortDesc := true
  page := f.page
  pageSize := f.pageSize

/-- `AuditLogRepo.List` -/
def list (times : TimeFormat) (c : DBCollection Document) (f : ListFilter Time) :
    Except GoString (List Document × PageMeta) := findPaged c (f.toList times.text)

/-- The filter of `WebList` for a tenant when nothing else is asked for, with the page. -/
def webFilter (tenantID : GoString) (page : ℤ) : ListFilter Time := { tenantID, page }

end Audit

end Xsiam
