import Xsiam.Incidents.Repository

/-!
# Alerts

The record of `internal/model/alert.go` and the queries of
`internal/domain/alert/repository.go`. An alert has a key of the database, an ID of its own, and
where it belongs to an incident a text that refers to the incident.

What the database compares when it compares times are texts, so whether one is not before another
is left to it.
-/

namespace Xsiam

namespace Incidents

open Go Repository

/-! ### The record -/

/-- `model.AlertStatus`. A text that is none of its constants is `other`. -/
inductive AlertStatus where
  | active
  | investigating
  | resolved
  | falsePositive
  | autoClosed
  | other (s : GoString)
deriving DecidableEq

/-- The text of a status. -/
def AlertStatus.text : AlertStatus → GoString
  | .active => str "active"
  | .investigating => str "investigating"
  | .resolved => str "resolved"
  | .falsePositive => str "false_positive"
  | .autoClosed => str "auto_closed"
  | .other s => s

/-- `model.IocEntry`, the member that is read here. -/
structure IocEntry where
  value : GoString
deriving DecidableEq

/-- `model.Alert`, the members that are read here. -/
structure Alert where
  key : GoString
  alertID : GoString
  tenantID : GoString := []
  name : GoString := []
  severity : GoString := []
  sourceType : GoString := []
  host : GoString := []
  status : AlertStatus := .active
  assetID : Option GoString := none
  assetName : GoString := []
  userName : Option GoString := none
  incidentID : Option GoString := none
  mitreTactics : List GoString := []
  iocs : List IocEntry := []
  triggeredAt : Time := 0
deriving DecidableEq

/-- The collection. A key is that of one alert, and so is an ID, for which there is a unique
index. -/
structure AlertDocs where
  docs : List Alert
  nodup_keys : (docs.map (·.key)).Nodup
  nodup_ids : (docs.map (·.alertID)).Nodup

namespace AlertDocs

variable (alerts : AlertDocs)

theorem eq_of_alertID {a b : Alert} (ha : a ∈ alerts.docs) (hb : b ∈ alerts.docs)
    (h : a.alertID = b.alertID) : a = b := List.inj_on_of_nodup_map alerts.nodup_ids ha hb h

theorem eq_of_key {a b : Alert} (ha : a ∈ alerts.docs) (hb : b ∈ alerts.docs)
    (h : a.key = b.key) : a = b := List.inj_on_of_nodup_map alerts.nodup_keys ha hb h

/-! ### Queries -/

/-- `FindByAlertID`, without what it fails with. -/
def findByAlertID (alertID : GoString) : Option Alert :=
  alerts.docs.find? fun d => d.alertID = alertID

/-- The alerts that are on an asset. -/
def onAsset (assetID : Option GoString) (d : Alert) : Bool :=
  assetID.isSome && d.assetID = assetID

/-- The alerts with an indicator of a list. -/
def withIoc (values : List GoString) (d : Alert) : Bool := d.iocs.any fun i => values.contains i.value

/-- The alerts of a user. -/
def ofUser (userName : Option GoString) (d : Alert) : Bool :=
  userName.isSome && d.userName = userName

/-- Alerts that pass a test, from a time on: `notBefore` is `doc.triggered_at >= @since`. -/
def findSince (notBefore : Time → Time → Bool) (test : Alert → Bool) (since : Time) : List Alert :=
  alerts.docs.filter fun d => test d && notBefore d.triggeredAt since

/-- `FindByAssetSince` -/
def findByAssetSince (notBefore : Time → Time → Bool) (assetID : Option GoString) (since : Time) :
    List Alert := alerts.findSince notBefore (onAsset assetID) since

/-- `FindByIocValues` -/
def findByIocValues (notBefore : Time → Time → Bool) (values : List GoString) (since : Time) :
    List Alert := alerts.findSince notBefore (withIoc values) since

/-- `FindByUser` -/
def findByUser (notBefore : Time → Time → Bool) (userName : Option GoString) (since : Time) :
    List Alert := alerts.findSince notBefore (ofUser userName) since

/-- `ListAlertKeys` of the incident repository. -/
def listAlertKeys (incidentKey : GoString) : List GoString :=
  (alerts.docs.filter fun d => d.incidentID = some incidentKey).map (·.key)

/-! ### Links -/

/-- An alert with another reference. -/
def setIncident (key ref : GoString) (d : Alert) : Alert :=
  if d.key = key then { d with incidentID := some ref } else d

@[simp] theorem key_setIncident (key ref : GoString) (d : Alert) :
    (setIncident key ref d).key = d.key := by
  rw [setIncident]
  split <;> rfl

@[simp] theorem alertID_setIncident (key ref : GoString) (d : Alert) :
    (setIncident key ref d).alertID = d.alertID := by
  rw [setIncident]
  split <;> rfl

/-- `Update` of an alert with a patch of `incident_id`. -/
def link (key ref : GoString) : AlertDocs where
  docs := alerts.docs.map (setIncident key ref)
  nodup_keys := by
    rw [List.map_map]
    simpa [Function.comp_def] using alerts.nodup_keys
  nodup_ids := by
    rw [List.map_map]
    simpa [Function.comp_def] using alerts.nodup_ids

/-- The same patch for a list of alerts. -/
def linkAll (ref : GoString) : List GoString → AlertDocs → AlertDocs
  | [], alerts => alerts
  | key :: keys, alerts => linkAll ref keys (alerts.link key ref)

/-- What a list of patches does to an alert. -/
def setAll (ref : GoString) (keys : List GoString) (d : Alert) : Alert :=
  if d.key ∈ keys then { d with incidentID := some ref } else d

theorem docs_linkAll (ref : GoString) {keys : List GoString} :
    ∀ {alerts : AlertDocs}, (linkAll ref keys alerts).docs = alerts.docs.map (setAll ref keys) := by
  induction keys with
  | nil =>
    intro alerts
    exact (List.map_id'' (fun d => if_neg List.not_mem_nil) _).symm
  | cons key keys ih =>
    intro alerts
    rw [linkAll, ih, link, List.map_map]
    refine List.map_congr_left fun d _ => ?_
    rw [Function.comp_apply, setAll, setAll, setIncident]
    by_cases hk : d.key = key
    · simp [hk]
    · simp [hk]

end AlertDocs

/-! ### Lists -/

/-- `repository.AlertListFilter`, the members that `List` reads. -/
structure AlertListFilter where
  tenantID : GoString := []
  severity : GoString := []
  status : GoString := []
  sourceType : GoString := []
  incidentID : GoString := []
  assetID : GoString := []
  host : GoString := []
  keyword : GoString := []
  after : Option Time := none
  before : Option Time := none
  page : ℤ := 0
  pageSize : ℤ := 0
  sortBy : GoString := []
  sortDesc : Bool := false

/-- The filter of a keyword. -/
def alertKeywordText : String :=
  "(CONTAINS(LOWER(doc.name), LOWER(@kw)) OR CONTAINS(LOWER(doc.asset_name), LOWER(@kw)))"

/-- The options `Repo.List` of the alerts hands to `FindPaged`. A time is bound as a text. -/
def AlertListFilter.toList (notBefore : Time → Time → Bool) (timeText : Time → GoString)
    (f : AlertListFilter) : ListOptions Alert where
  collection := str "alerts"
  filters :=
    tenantFilter (·.tenantID) f.tenantID ++
      equalFilter "doc.severity == @severity" (f.severity ≠ []) (·.severity = f.severity) ++
      equalFilter "doc.status == @status" (f.status ≠ []) (·.status.text = f.status) ++
      equalFilter "doc.source_type == @sourceType" (f.sourceType ≠ [])
        (·.sourceType = f.sourceType) ++
      equalFilter "doc.incident_id == @incidentId" (f.incidentID ≠ [])
        (·.incidentID = some f.incidentID) ++
      equalFilter "doc.asset_id == @assetId" (f.assetID ≠ []) (·.assetID = some f.assetID) ++
      equalFilter "LOWER(doc.host) == LOWER(@host)" (f.host ≠ [])
        (fun a => toLower a.host = toLower f.host) ++
      equalFilter alertKeywordText (f.keyword ≠ [])
        (fun a => containsLower a.name f.keyword || containsLower a.assetName f.keyword) ++
      equalFilter "doc.triggered_at >= @after" f.after.isSome
        (fun a => f.after.all (notBefore a.triggeredAt)) ++
      equalFilter "doc.triggered_at <= @before" f.before.isSome
        (fun a => f.before.all fun t => notBefore t a.triggeredAt)
  bindVars :=
    bindIf "before" f.before.isSome (.str (timeText (f.before.getD 0))) <|
      bindIf "after" f.after.isSome (.str (timeText (f.after.getD 0))) <|
      bindIf "kw" (f.keyword ≠ []) (.str f.keyword) <|
      bindIf "host" (f.host ≠ []) (.str f.host) <|
      bindIf "assetId" (f.assetID ≠ []) (.str f.assetID) <|
      bindIf "incidentId" (f.incidentID ≠ []) (.str f.incidentID) <|
      bindIf "sourceType" (f.sourceType ≠ []) (.str f.sourceType) <|
      bindIf "status" (f.status ≠ []) (.str f.status) <|
      bindIf "severity" (f.severity ≠ []) (.str f.severity) <|
      bindIf "tenantID" (f.tenantID ≠ []) (.str f.tenantID) ∅
  sortBy := if f.sortBy = [] then str "triggered_at" else f.sortBy
  sortDesc := f.sortDesc
  page := f.page
  pageSize := f.pageSize

end Incidents

end Xsiam
