import Xsiam.Etl.Model
import Xsiam.Repository.LogEntries

/-!
# Incidents

The record of `internal/model/incident.go` and the list of
`internal/domain/incident/repository.go`.
-/

namespace Xsiam

namespace Incidents

open Go Repository

/-- An hour, in nanoseconds. -/
def hour : Time := 3600 * 10 ^ 9

/-- `model.IncidentStatus`. A text that is none of its constants is `other`. -/
inductive Status where
  | new
  | investigating
  | inProgress
  | contained
  | resolved
  | closed
  | other (s : GoString)
deriving DecidableEq

/-- The text of a status. -/
def Status.text : Status → GoString
  | .new => str "new"
  | .investigating => str "investigating"
  | .inProgress => str "in_progress"
  | .contained => str "contained"
  | .resolved => str "resolved"
  | .closed => str "closed"
  | .other s => s

/-- `model.Incident`, the members that are read here. -/
structure Incident where
  key : GoString
  incidentID : GoString
  tenantID : GoString := []
  name : GoString := []
  title : GoString := []
  description : GoString := []
  severity : GoString := []
  status : Status := .new
  smartScore : Float64 := ⟨0⟩
  alertIDs : List GoString := []
  alertCount : ℤ := 0
  mitreTactics : List GoString := []
  mitreTactic : GoString := []
  assigneeID : Option GoString := none
  assignedTo : GoString := []
  priority : GoString := []
  firstSeen : Time := 0
  createdAt : Time := 0
deriving DecidableEq

/-- `repository.IncidentListFilter`, the members that `List` reads. -/
structure IncidentListFilter where
  tenantID : GoString := []
  severity : GoString := []
  status : GoString := []
  priority : GoString := []
  assigneeID : GoString := []
  keyword : GoString := []
  mitreTactic : GoString := []
  assignedTo : GoString := []
  page : ℤ := 0
  pageSize : ℤ := 0
  sortBy : GoString := []
  sortDesc : Bool := false

/-- The filter of a keyword. -/
def keywordText : String :=
  "(CONTAINS(LOWER(doc.name), LOWER(@kw)) OR CONTAINS(LOWER(doc.title), LOWER(@kw)) OR " ++
    "CONTAINS(LOWER(doc.description), LOWER(@kw)))"

/-- `GetByID`, without what it fails with. -/
def getByID (docs : List Incident) (key : GoString) : Option Incident :=
  docs.find? fun d => d.key = key

/-- `UpdateDocument` on the collection. -/
def updateIncident (docs : List Incident) (key : GoString) (patch : Incident → Incident) :
    List Incident :=
  docs.map fun d => if d.key = key then patch d else d

/-- An update that leaves the keys alone leaves every document its own. -/
theorem map_key_updateIncident {patch : Incident → Incident} (h : ∀ d, (patch d).key = d.key)
    (docs : List Incident) (key : GoString) :
    (updateIncident docs key patch).map (·.key) = docs.map (·.key) := by
  rw [updateIncident, List.map_map]
  refine List.map_congr_left fun d _ => ?_
  rw [Function.comp_apply]
  split
  · exact h d
  · rfl

/-- The options `Repo.List` hands to `FindPaged`. -/
def IncidentListFilter.toList (f : IncidentListFilter) : ListOptions Incident where
  collection := str "incidents"
  filters :=
    tenantFilter (·.tenantID) f.tenantID ++
      equalFilter "doc.severity == @severity" (f.severity ≠ []) (·.severity = f.severity) ++
      equalFilter "doc.status == @status" (f.status ≠ []) (·.status.text = f.status) ++
      equalFilter "doc.priority == @priority" (f.priority ≠ []) (·.priority = f.priority) ++
      equalFilter "doc.assignee_id == @assigneeId" (f.assigneeID ≠ [])
        (·.assigneeID = some f.assigneeID) ++
      equalFilter keywordText (f.keyword ≠ [])
        (fun i => containsLower i.name f.keyword || containsLower i.title f.keyword ||
          containsLower i.description f.keyword) ++
      equalFilter "(@mitreTactic IN doc.mitre_tactics OR doc.mitre_tactic == @mitreTactic)"
        (f.mitreTactic ≠ [])
        (fun i => i.mitreTactics.contains f.mitreTactic || i.mitreTactic = f.mitreTactic) ++
      equalFilter "doc.assigned_to == @assignedTo" (f.assignedTo ≠ [])
        (·.assignedTo = f.assignedTo)
  bindVars :=
    bindIf "assignedTo" (f.assignedTo ≠ []) (.str f.assignedTo) <|
      bindIf "mitreTactic" (f.mitreTactic ≠ []) (.str f.mitreTactic) <|
      bindIf "kw" (f.keyword ≠ []) (.str f.keyword) <|
      bindIf "assigneeId" (f.assigneeID ≠ []) (.str f.assigneeID) <|
      bindIf "priority" (f.priority ≠ []) (.str f.priority) <|
      bindIf "status" (f.status ≠ []) (.str f.status) <|
      bindIf "severity" (f.severity ≠ []) (.str f.severity) <|
      bindIf "tenantID" (f.tenantID ≠ []) (.str f.tenantID) ∅
  sortBy := if f.sortBy = [] then str "last_activity" else f.sortBy
  sortDesc := f.sortDesc
  page := f.page
  pageSize := f.pageSize

/-- `Repo.List` -/
def listIncidents (c : DBCollection Incident) (f : IncidentListFilter) :
    Except GoString (List Incident × PageMeta) := findPaged c f.toList

end Incidents

end Xsiam
