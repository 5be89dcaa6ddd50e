import Xsiam.Audit.Records

/-!
# The services of incidents and alerts

`Service` of `internal/domain/incident` and of `internal/domain/alert`, with their repositories, as
programs on the database: incidents are created, deleted and merged, and alerts are created, deleted
and linked to incidents by hand.

An alert refers to its incident by the incident's key, in `incident_id`. An incident has a list of
its alerts' keys of its own, `alert_ids`, with their number in `alert_count`.
-/

namespace Xsiam

namespace Incidents

open Go Repository

/-! ### Documents -/

/-- The fields of `model.Incident`. -/
def incidentFields : Fields :=
  [(str "_key", .text), (str "incident_id", .text), (str "tenant_id", .text), (str "name", .text),
    (str "title", .text), (str "description", .text), (str "severity", .text), (str "status", .text),
    (str "smart_score", .float),
    (str "score_factors", .list (.record [(str "dimension", .text), (str "name", .text),
      (str "value", .float), (str "weight", .float)])),
    (str "alert_ids", .list .text), (str "alert_count", .int), (str "affected_assets", .list .text),
    (str "host_count", .int), (str "mitre_tactics", .list .text),
    (str "mitre_techniques", .list .text), (str "mitre_tactic", .text), (str "assignee_id", .text),
    (str "assignee_name", .text), (str "assigned_to", .text), (str "priority", .text),
    (str "sla_deadline", .text),
    (str "timeline", .list (.record [(str "event_type", .text), (str "detail", .text),
      (str "operator_id", .text), (str "occurred_at", .time)])),
    (str "notes", .list (.record [(str "note_id", .text), (str "content", .text),
      (str "author_id", .text), (str "author_name", .text), (str "created_at", .time)])),
    (str "first_seen", .time), (str "last_activity", .time), (str "resolved_at", .time),
    (str "created_at", .time), (str "updated_at", .time)]

/-- A slice of strings that a field is read with: nil where nothing is there. -/
def sliceOf (d : Document) (name : GoString) : Option (List GoString) :=
  match d.get name with
  | .arr vs => some (vs.map Document.valueText)
  | _ => none

/-- A slice of strings as it is written. -/
def sliceValue : Option (List GoString) → Value
  | none => .null
  | some ss => Document.ofTexts ss

/-- A slice with others appended. -/
def appendSlice (ss ts : Option (List GoString)) : Option (List GoString) :=
  if ts.getD [] = [] then ss else some (ss.getD [] ++ ts.getD [])

/-- `CreateIncidentReq` -/
structure CreateIncidentReq where
  name : GoString := []
  title : GoString := []
  description : GoString := []
  severity : GoString
  priority : GoString := []
  tenantID : GoString := []

/-- `effectiveName` -/
def CreateIncidentReq.effectiveName (r : CreateIncidentReq) : GoString :=
  if r.title ≠ [] then r.title else r.name

/-- A text that is left out where it is empty. -/
def nonemptyEntry (name : String) (s : GoString) : List (String × Value) :=
  if s = [] then [] else [(name, .str s)]

/-- `CreateAlertReq` -/
structure CreateAlertReq where
  name : GoString
  description : GoString := []
  severity : GoString
  sourceType : GoString
  assetName : GoString := []
  assetID : Option GoString := none
  tenantID : GoString := []
  triggerSource : GoString := []
  resultCount : UInt64 := 0
  mitreTactics : Option (List GoString) := none
  mitreTechniques : Option (List GoString) := none
  ruleID : GoString := []

section Documents

variable (times : TimeFormat) (now : Time)

/-- The attributes of a new incident as they are written. -/
def CreateIncidentReq.entries (r : CreateIncidentReq) (incidentID : GoString) :
    List (String × Value) :=
  ("incident_id", .str incidentID) :: ("tenant_id", .str r.tenantID) ::
    ("name", .str r.effectiveName) :: ("title", .str r.effectiveName) ::
    ("description", .str r.description) :: ("severity", .str r.severity) ::
    ("status", .str (str "new")) :: ("smart_score", .float ⟨0⟩) :: ("score_factors", .null) ::
    ("alert_ids", .null) :: ("alert_count", .int .int 0) :: ("affected_assets", .null) ::
    ("host_count", .int .int 0) :: ("mitre_tactics", .null) :: ("mitre_techniques", .null) ::
    ("mitre_tactic", .str []) :: ("assignee_id", .null) :: ("assignee_name", .null) ::
    ("assigned_to", .str []) :: ("timeline", .null) :: ("notes", .null) ::
    ("first_seen", .str (times.text now)) :: ("last_activity", .str (times.text now)) ::
    ("resolved_at", .null) :: ("created_at", .str (times.text now)) ::
    ("updated_at", .str (times.text now)) :: nonemptyEntry "priority" r.priority

/-- A new incident as it is written to a document. -/
def CreateIncidentReq.document (r : CreateIncidentReq) (incidentID : GoString) : Document :=
  Document.ofEntries (r.entries times now incidentID)

/-- The attributes of a new alert as they are written. -/
def CreateAlertReq.entries (r : CreateAlertReq) (alertID : GoString) : List (String × Value) :=
  [("alert_id", .str alertID), ("tenant_id", .str r.tenantID), ("name", .str r.name),
    ("description", .str r.description), ("severity", .str r.severity),
    ("source_type", .str r.sourceType), ("source", .str r.sourceType), ("host", .str r.assetName),
    ("user", .str []), ("mitre_tactic", .str ((r.mitreTactics.getD []).headD [])),
    ("status", .str (str "active")), ("asset_id", (r.assetID.map Value.str).getD .null),
    ("asset_name", .str r.assetName), ("user_name", .null), ("incident_id", .null),
    ("detection_rule", .str r.ruleID), ("rule_type", .str []),
    ("trigger_source", .str r.triggerSource), ("result_count", .int .uint r.resultCount.toNat),
    ("mitre_tactics", sliceValue r.mitreTactics), ("mitre_techniques", sliceValue r.mitreTechniques),
    ("iocs", .null), ("process_tree", .null), ("raw_data", .null), ("assignee_id", .null),
    ("assignee_name", .null), ("resolved_at", .null), ("resolution_note", .str []),
    ("triggered_at", .str (times.text now)), ("created_at", .str (times.text now)),
    ("updated_at", .str (times.text now))]

/-- A new alert as it is written to a document. -/
def CreateAlertReq.document (r : CreateAlertReq) (alertID : GoString) : Document :=
  Document.ofEntries (r.entries times now alertID)

end Documents

/-! ### Incidents -/

section Programs

variable (times : TimeFormat) (now : Time)

/-- `IncidentRepo.GetByID` -/
def getIncident (key : GoString) (place : List ℕ) : DB (Except GoString Document) :=
  getByKey times incidentFields .incidents "incident" key place

/-- `Service.Create` of incidents, with the ID that is made for the new one. -/
def createIncident (req : CreateIncidentReq) (incidentID operatorID : GoString) :
    DB (Except GoString GoString) := do
  let doc := req.document times now incidentID
  match ← createDoc .incidents [] doc [] with
  | .error e => pure (.error (str "create incident: " ++ e.text))
  | .ok key => do
    Audit.record times now (Audit.created operatorID "incident" key req.effectiveName doc)
    pure (.ok key)

/-- `Service.Delete` of incidents -/
def deleteIncident (key : GoString) : DB (Except GoString Unit) := deleteByKey .incidents key []

/-- What a merge collects: the lists of the primary incident. -/
structure Merged where
  alertIDs : Option (List GoString)
  affectedAssets : Option (List GoString)

/-- The lists that an incident is read with. -/
def Merged.of (d : Document) : Merged :=
  ⟨sliceOf d (str "alert_ids"), sliceOf d (str "affected_assets")⟩

/-- The lists with those of a secondary incident. -/
def Merged.add (m : Merged) (sec : Document) : Merged :=
  ⟨appendSlice m.alertIDs (sliceOf sec (str "alert_ids")),
    appendSlice m.affectedAssets (sliceOf sec (str "affected_assets"))⟩

/-- What refers an alert to an incident. -/
def incidentPatch (incidentKey : GoString) : Document :=
  Document.ofEntries [("incident_id", .str incidentKey)]

/-- The lists of a merge as they are written. -/
def Merged.patch (m : Merged) : Document :=
  Document.ofEntries [("alert_ids", sliceValue m.alertIDs),
    ("alert_count", .int .int (m.alertIDs.getD []).length),
    ("affected_assets", sliceValue m.affectedAssets)]

/-- The inner loop of `Merge`: the alerts of a secondary incident, one after the other. Whether an
update succeeds nobody asks. -/
def relinkAlerts (primaryKey : GoString) (i : ℕ) : List GoString → ℕ → DB Unit
  | [], _ => pure ()
  | aid :: aids, j => do
    let _ ← patchByKey times now .alerts aid (incidentPatch primaryKey) [i, j]
    relinkAlerts primaryKey i aids (j + 1)

/-- The outer loop of `Merge`. A secondary incident that is not read is skipped. -/
def mergeLoop (primaryKey : GoString) : List GoString → ℕ → Merged → DB Merged
  | [], _, m => pure m
  | sk :: sks, i, m => do
    match ← getIncident times sk [i] with
    | .error _ => mergeLoop primaryKey sks (i + 1) m
    | .ok sec => do
      relinkAlerts times now primaryKey i (sec.texts (str "alert_ids")) 0
      let _ ← deleteByKey .incidents sk [i]
      mergeLoop primaryKey sks (i + 1) (m.add sec)

/-- `Service.Merge` -/
def mergeIncidents (primaryKey : GoString) (secondaryKeys : List GoString) :
    DB (Except GoString Unit) := do
  match ← getIncident times primaryKey [] with
  | .error msg => pure (.error msg)
  | .ok primary => do
    let m ← mergeLoop times now primaryKey secondaryKeys 0 (.of primary)
    patchByKey times now .incidents primaryKey m.patch []

/-! ### Alerts -/

/-- `Service.Create` of alerts, with the ID that is made for the new one. -/
def createAlert (req : CreateAlertReq) (alertID operatorID : GoString) :
    DB (Except GoString GoString) := do
  let doc := req.document times now alertID
  match ← createDoc .alerts [] doc [] with
  | .error e => pure (.error (str "create alert: " ++ e.text))
  | .ok key => do
    Audit.record times now (Audit.created operatorID "alert" key req.name doc)
    pure (.ok key)

/-- `Service.Delete` of alerts -/
def deleteAlert (key : GoString) : DB (Except GoString Unit) := deleteByKey .alerts key []

/-- `Service.LinkIncident` -/
def linkIncident (alertKey incidentKey : GoString) : DB (Except GoString Unit) := do
  match ← getIncident times incidentKey [] with
  | .error msg => pure (.error (str "incident not found: " ++ msg))
  | .ok _ => patchByKey times now .alerts alertKey (incidentPatch incidentKey) []

end Programs

end Incidents

end Xsiam
