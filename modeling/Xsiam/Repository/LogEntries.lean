import Xsiam.Etl.Model
import Xsiam.Repository.FindPaged

/-!
# Lists of log entries, and the tenant of a list

`LogEntryRepo.List` of `internal/repository/log_entry.go`, and `InjectTenantFilter` of
`internal/repository/tenant_aware.go`, which most lists start with.
-/

namespace Xsiam

namespace Repository

open Go

/-- A filter with one bound value that a field has to be equal to, where it is asked for. -/
def equalFilter {α : Type} (text : String) (asked : Bool) (equal : α → Bool) : List (Filter α) :=
  if asked then [⟨str text, equal⟩] else []

/-- A value bound under a name, where it is asked for. -/
def bindIf (name : String) (asked : Bool) (v : Value) (m : GoMap Value) : GoMap Value :=
  if asked then m.insert (str name) v else m

/-- `InjectTenantFilter` -/
def tenantFilter {α : Type} (tenantOf : α → GoString) (tenantID : GoString) : List (Filter α) :=
  equalFilter "doc.tenant_id == @tenantID" (tenantID ≠ []) fun d => tenantOf d = tenantID

/-- Whose documents a list for a tenant has. -/
def OfTenant (tenantID owner : GoString) : Prop := tenantID = [] ∨ owner = tenantID

instance (tenantID owner : GoString) : Decidable (OfTenant tenantID owner) :=
  inferInstanceAs (Decidable (_ ∨ _))

theorem all_tenantFilter {α : Type} {tenantOf : α → GoString} {tenantID : GoString} {d : α} :
    (tenantFilter tenantOf tenantID).all (fun f => f.passes d) = true ↔
      OfTenant tenantID (tenantOf d) := by
  by_cases h : tenantID = []
  · simp [tenantFilter, equalFilter, OfTenant, h]
  · simp [tenantFilter, equalFilter, OfTenant, h]

/-- `CONTAINS(LOWER(text), LOWER(@kw))` -/
def containsLower (text kw : GoString) : Bool := contains (toLower text) (toLower kw)

/-- `LogListOptions` -/
structure LogListOptions where
  tenantID : GoString
  dataset : GoString := []
  agentID : GoString := []
  hostname : GoString := []
  kind : Option UInt8 := none
  page : ℤ := 0
  pageSize : ℤ := 0
  sortBy : GoString := []
  sortDesc : Bool := false

/-- The options `LogEntryRepo.List` hands to `FindPaged`. -/
def LogListOptions.toList (o : LogListOptions) : ListOptions LogEntry where
  collection := str "log_entries"
  filters :=
    equalFilter "doc.tenant_id == @tid" true (·.tenantID = o.tenantID) ++
      equalFilter "doc.dataset == @dataset" (o.dataset ≠ []) (·.dataset = o.dataset) ++
      equalFilter "doc.agent_id == @agent_id" (o.agentID ≠ []) (·.agentID = o.agentID) ++
      equalFilter "doc.hostname == @hostname" (o.hostname ≠ []) (·.hostname = o.hostname) ++
      equalFilter "doc.kind == @kind" o.kind.isSome (some ·.kind = o.kind)
  bindVars :=
    bindIf "kind" o.kind.isSome (.int .uint8 ((o.kind.getD 0).toNat)) <|
      bindIf "hostname" (o.hostname ≠ []) (.str o.hostname) <|
      bindIf "agent_id" (o.agentID ≠ []) (.str o.agentID) <|
      bindIf "dataset" (o.dataset ≠ []) (.str o.dataset) <|
      bindIf "tid" true (.str o.tenantID) ∅
  sortBy := if o.sortBy = [] then str "event_timestamp" else o.sortBy
  sortDesc := o.sortDesc
  page := o.page
  pageSize := o.pageSize

/-- `LogEntryRepo.List` -/
def listLogEntries (c : DBCollection LogEntry) (o : LogListOptions) :
    Except GoString (List LogEntry × PageMeta) := findPaged c o.toList

end Repository

end Xsiam
