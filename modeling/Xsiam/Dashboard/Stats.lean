import Mathlib.Data.List.Dedup
import Xsiam.Go.Float
import Xsiam.Incidents.Service
import Xsiam.Incidents.TimeFilters
import Xsiam.Repository.LogEntries

/-!
# The figures of a dashboard

`computeStats` of `internal/domain/dashboard/service.go` and what `GetExtendedStats` of
`stats_extended.go` adds, with the queries of `internal/repository` that they ask. A query may fail,
and one that finds a document which cannot be read into its structure fails as well; most failures
leave the figures empty. The lists ask for ten thousand documents and get the hundred that a page
has at most.

The alerts of the last days and the tactics are asked for without a tenant
(`Xsiam.Dashboard.findRecentRange`, `Xsiam.Dashboard.aggregateByMitre`), all other queries for the
tenant's documents.
-/

namespace Xsiam

namespace Dashboard

open Go Repository

/-! ### Documents -/

/-- The fields of `model.Alert`. -/
def alertFields : Fields :=
  [(str "_key", .text), (str "alert_id", .text), (str "tenant_id", .text), (str "name", .text),
    (str "description", .text), (str "severity", .text), (str "source_type", .text),
    (str "source", .text), (str "host", .text), (str "user", .text), (str "mitre_tactic", .text),
    (str "status", .text), (str "asset_id", .text), (str "asset_name", .text),
    (str "user_name", .text), (str "incident_id", .text), (str "detection_rule", .text),
    (str "rule_type", .text), (str "trigger_source", .text), (str "result_count", .uint64),
    (str "mitre_tactics", .list .text), (str "mitre_techniques", .list .text),
    (str "iocs", .list (.record [(str "type", .text), (str "value", .text),
      (str "verdict", .text)])),
    (str "process_tree", .list (.record [(str "pid", .int), (str "name", .text),
      (str "path", .text), (str "command_line", .text), (str "parent_pid", .int),
      (str "is_root", .flag), (str "is_alert_node", .flag)])),
    (str "raw_data", .map .any), (str "assignee_id", .text), (str "assignee_name", .text),
    (str "resolved_at", .time), (str "resolution_note", .text), (str "triggered_at", .time),
    (str "created_at", .time), (str "updated_at", .time)]

/-- The fields of `model.Asset`. -/
def assetFields : Fields :=
  [(str "_key", .text), (str "tenant_id", .text), (str "name", .text), (str "type", .text),
    (str "identifier", .text), (str "ip_addresses", .list .text),
    (str "os_info", .record [(str "name", .text), (str "version", .text), (str "arch", .text)]),
    (str "agent", .record [(str "agent_id", .text), (str "version", .text), (str "status", .text),
      (str "last_seen", .time), (str "policy_id", .text)]),
    (str "department", .text), (str "owner", .text), (str "risk_score", .float),
    (str "risk_level", .text), (str "importance", .text), (str "is_honeypot", .flag),
    (str "active_incident_count", .int), (str "open_vuln_count", .int), (str "tags", .list .text),
    (str "last_seen", .time), (str "created_at", .time), (str "updated_at", .time),
    (str "hostname", .text), (str "ip", .text), (str "os", .text), (str "status", .text)]

/-- The fields of `model.Vulnerability`. -/
def vulnerabilityFields : Fields :=
  [(str "_key", .text), (str "tenant_id", .text), (str "cve_id", .text), (str "title", .text),
    (str "description", .text), (str "cvss_score", .float), (str "severity", .text),
    (str "priority_score", .float), (str "exploited_in_wild", .flag),
    (str "affected_asset_ids", .list .text), (str "fix_status", .text), (str "fix_deadline", .time),
    (str "references", .list .text), (str "created_at", .time), (str "updated_at", .time),
    (str "assigned_to", .text), (str "due_date", .text), (str "fix_notes", .text),
    (str "fix_effort", .text), (str "status", .text), (str "affected_assets", .list .text),
    (str "published_at", .time)]

/-- The collections that the figures are computed from. -/
inductive Source where
  | alerts
  | incidents
  | assets
  | vulnerabilities
  | detectionRules
  | iocs
  | identityRisks
  | reports
deriving DecidableEq

/-- The documents of the collections. -/
abbrev Docs := Source → List Document

/-- The queries. A repository that a service is made without counts nothing, as if its query failed.
-/
inductive Asked where
  | allAlerts
  | recent
  | allIncidents
  | assets
  | vulns
  | critical
  | iocCount
  | riskCount
  | reportCount
  | recentRange
  | mitreMap
  | srcRows
  | assetRows
  | tenantMitreMap
  | ruleTotal
  | ruleActive
  | extendedIocCount
deriving DecidableEq

/-- What the database and the clock do: the orders that documents and groups are sorted into, the
queries that fail, and what is computed with times and floats. -/
structure Engine where
  times : TimeFormat
  ops : FloatOps
  /-- `b.Sub(a).Hours()`, of times as they are stored. -/
  hoursBetween : Value → Value → Float64
  sort : Source → GoString → Bool → List Document → List Document
  sort_perm : ∀ c key desc ds, (sort c key desc ds).Perm ds
  other : Source → GoString → GoMap Value → Except GoString (List Document)
  /-- The order `COLLECT` returns its groups in, in which null is the smallest value. -/
  groupOrder : List (List Value) → List (List Value)
  groupOrder_perm : ∀ ks, (groupOrder ks).Perm ks
  groupOrder_null : ∀ ks, ks.Nodup → (groupOrder ks).Pairwise fun _ k => k ≠ [.null]
  /-- `SORT cnt DESC` -/
  ranked : List (List Value × ℕ) → List (List Value × ℕ)
  ranked_perm : ∀ rows, (ranked rows).Perm rows
  ranked_desc : ∀ rows, (ranked rows).Pairwise fun r r' => r'.2 ≤ r.2
  fails : Asked → Bool

/-- What `time.Now` is taken for: the time and the one of seven days ago, and the dates of the days
before. -/
structure Clock where
  now : Stamp
  sevenDaysAgo : Stamp
  /-- `now.AddDate(0, 0, -i).Format("2006-01-02")` -/
  day : ℕ → GoString

variable (e : Engine)

/-- A collection as the lists ask for it. -/
def Engine.collection (docs : Docs) (c : Source) : DBCollection Document where
  docs := docs c
  sort := e.sort c
  perm := e.sort_perm c
  other := e.other c

/-! ### Lists -/

/-- What a list returns: the documents that were read, the total of the page, and whether it ended
without an error. -/
structure Listed where
  data : List Document := []
  total : ℤ := 0
  ok : Bool := false

/-- A list whose documents are read into a structure: at the first one that cannot be read it ends,
with what it has read so far. -/
def listPage (q : Asked) (fields : Fields) (c : DBCollection Document) (o : ListOptions Document) :
    Listed :=
  if e.fails q then {}
  else match findPaged c o with
    | .error _ => {}
    | .ok (ds, pageMeta) =>
      if ds.all fun d => d.Reads e.times fields then ⟨ds, pageMeta.total, true⟩
      else { data := ds.takeWhile fun d => d.Reads e.times fields }

/-- The options of a first page of the tenant's documents. -/
def tenantPage (collection : String) (tenantID : GoString) (pageSize : ℤ) (sortBy : String)
    (sortDesc : Bool) : ListOptions Document where
  collection := str collection
  filters := tenantFilter (·.text (str "tenant_id")) tenantID
  bindVars := bindIf "tenantID" (tenantID ≠ []) (.str tenantID) ∅
  sortBy := str sortBy
  sortDesc
  page := 1
  pageSize

/-- The options of the list of critical vulnerabilities. -/
def criticalPage (tenantID : GoString) : ListOptions Document where
  collection := str "vulnerabilities"
  filters := tenantFilter (·.text (str "tenant_id")) tenantID ++
    equalFilter "doc.severity == @severity" true fun d =>
      d.get (str "severity") = .str (str "critical")
  bindVars := bindIf "severity" true (.str (str "critical")) <|
    bindIf "tenantID" (tenantID ≠ []) (.str tenantID) ∅
  page := 1
  pageSize := 1

/-! ### Counts and groups -/

/-- `doc.tenant_id == @tid` -/
def hasTenant (tenantID : GoString) (d : Document) : Bool := d.get (str "tenant_id") = .str tenantID

/-- `doc.status == "active"` -/
def isActive (d : Document) : Bool := d.get (str "status") = .str (str "active")

/-- `FOR doc IN ... FILTER ... COLLECT WITH COUNT INTO n RETURN n`, where no answer counts nothing.
-/
def countDocs (q : Asked) (test : Document → Bool) (ds : List Document) : ℤ :=
  if e.fails q then 0 else (ds.filter test).length

/-- `COLLECT`: the keys there are, each with what has it. -/
def Engine.collect {α : Type} (key : α → List Value) (rows : List α) : List (List Value × List α) :=
  (e.groupOrder (rows.map key).dedup).map fun k => (k, rows.filter fun r => key r = k)

/-- A row of texts can be read. -/
def readsTexts (vs : List Value) : Bool :=
  vs.all fun v => Repository.Kind.text.accepts e.times v

/-- `AggregateByMitre`: the techniques of the active rules under their tactics, whoever they belong
to. -/
def aggregateByMitre (ds : List Document) : Option (GoMap (List GoString)) :=
  let groups := e.collect (fun d : Document => [d.get (str "mitre_tactic")]) (ds.filter isActive)
  let rows := groups.map fun g => (g.1, g.2.map fun d => d.get (str "mitre_technique"))
  if e.fails .mitreMap ∨ ¬rows.all (fun r => readsTexts e (r.1 ++ r.2)) = true then none
  else some (GoMap.insertAll ∅ (rows.map fun r =>
    (Document.valueText (r.1.headD .null), r.2.map Document.valueText)))

/-- `AggregateBySourceType` -/
def aggregateBySourceType (tenantID : GoString) (ds : List Document) :
    Option (List (GoString × ℤ)) :=
  let rows := e.collect (fun d : Document => [d.get (str "source_type")])
    (ds.filter (hasTenant tenantID))
  if e.fails .srcRows ∨ ¬rows.all (fun r => readsTexts e r.1) = true then none
  else some (rows.map fun r => (Document.valueText (r.1.headD .null), (r.2.length : ℤ)))

/-- `AggregateTopAssets`, with the ID, the name and the count of each row. -/
def aggregateTopAssets (tenantID : GoString) (limit : ℕ) (ds : List Document) :
    Option (List (GoString × GoString × ℤ)) :=
  let groups := e.collect (fun d : Document => [d.get (str "asset_id"), d.get (str "asset_name")])
    (ds.filter (hasTenant tenantID))
  let rows := (e.ranked (groups.map fun g => (g.1, g.2.length))).take limit
  if e.fails .assetRows ∨ ¬rows.all (fun r => readsTexts e r.1) = true then none
  else some (rows.map fun r => (Document.valueText (r.1.getD 0 .null),
    Document.valueText (r.1.getD 1 .null), (r.2 : ℤ)))

/-- The tactics of a rule: `mitre_tactics`, or else the one of `mitre_tactic`. -/
def tacticsOf (d : Document) : List Value :=
  match d.get (str "mitre_tactics") with
  | .null =>
    let tactic := d.get (str "mitre_tactic")
    if tactic ≠ .null ∧ tactic ≠ .str [] then [tactic] else []
  | .arr vs => vs
  | _ => []

/-- `AggregateByMitreTenant` -/
def aggregateByMitreTenant (tenantID : GoString) (ds : List Document) :
    Option (GoMap (List GoString)) :=
  let active := ds.filter fun d => hasTenant tenantID d && isActive d
  let rows := (e.collect (fun r : Value × Value => [r.1])
    (active.flatMap fun d => (tacticsOf d).map fun tactic =>
      (tactic, d.get (str "mitre_technique")))).map fun g => (g.1, g.2.map Prod.snd)
  if e.fails .tenantMitreMap ∨ ¬rows.all (fun r => readsTexts e (r.1 ++ r.2)) = true then none
  else some (GoMap.insertAll ∅ ((rows.map fun r =>
    (Document.valueText (r.1.headD .null), r.2.map Document.valueText)).filter (·.1 ≠ [])))

/-- `FindByTimeRange` for the last seven days, with no alert where one cannot be read. -/
def findRecentRange (clock : Clock) (ds : List Document) : List Document :=
  let range := Incidents.findByTimeRange ds clock.sevenDaysAgo clock.now
  if e.fails .recentRange ∨ ¬range.all (fun d => d.Reads e.times alertFields) = true then []
  else range

/-! ### The figures -/

/-- `DayCount` -/
structure DayCount where
  date : GoString
  count : ℤ

/-- `TacticCount` -/
structure TacticCount where
  tactic : GoString
  count : ℤ
deriving DecidableEq

/-- `AlertSummary` -/
structure AlertSummary where
  key : GoString
  title : GoString
  severity : GoString
  status : GoString
  triggeredAt : GoString

/-- `Stats` -/
structure Stats where
  totalAlerts : ℤ
  openAlerts : ℤ
  totalIncidents : ℤ
  openIncidents : ℤ
  totalAssets : ℤ
  totalVulns : ℤ
  totalVulnerabilities : ℤ
  criticalVulns : ℤ
  totalIOCs : ℤ
  totalRisks : ℤ
  totalReports : ℤ
  alertsByDay : List DayCount
  alertsBySeverity : GoMap ℤ
  incidentsByStatus : GoMap ℤ
  topTactics : List TacticCount
  recentAlerts : List AlertSummary
  mttrHours : Float64

/-- `m[k]++` for each of the keys. -/
def increments (m : GoMap ℤ) (ks : List GoString) : GoMap ℤ :=
  ks.foldl (fun m k => m.insert k (m[k]?.getD 0 + 1)) m

/-- A document has one of some statuses. -/
def hasStatus (statuses : List String) (d : Document) : Bool :=
  statuses.any fun s => d.text (str "status") = str s

/-- The mean time to resolve, over the resolved incidents in the order of the list. -/
def mttrHours (incidents : List Document) : Float64 :=
  let resolved := incidents.filter fun d =>
    hasStatus ["resolved"] d && d.get (str "resolved_at") ≠ .null
  let totalHours := resolved.foldl (fun total d => e.ops.add total
    (e.hoursBetween (d.get (str "created_at")) (d.get (str "resolved_at")))) ⟨0⟩
  if resolved = [] then ⟨0⟩ else e.ops.div totalHours (e.ops.ofInt resolved.length)

/-- The date of an alert, `a.TriggeredAt.Format("2006-01-02")`: a time that was read begins with it.
-/
def dayOf (d : Document) : GoString := (d.text (str "triggered_at")).take 10

/-- The alerts of the seven days, the last one first counted from six days ago. -/
def alertsByDay (clock : Clock) (recentRange : List Document) : List DayCount :=
  let days := [6, 5, 4, 3, 2, 1, 0].map clock.day
  let dayMap := increments (GoMap.insertAll ∅ (days.map fun day => (day, 0)))
    (recentRange.map dayOf)
  days.map fun day => ⟨day, dayMap[day]?.getD 0⟩

/-- The tactics with the number of their techniques, in the order the map is met in. -/
def topTactics (order : MapRange) (mitreMap : Option (GoMap (List GoString))) : List TacticCount :=
  (order.entries (mitreMap.getD ∅)).map fun kv => ⟨kv.1, kv.2.length⟩

/-- `computeStats` -/
def computeStats (clock : Clock) (order : MapRange) (tenantID : GoString) (docs : Docs) : Stats :=
  let allAlerts := listPage e .allAlerts alertFields (e.collection docs .alerts)
    (tenantPage "alerts" tenantID 10000 "triggered_at" false)
  let alerts := if allAlerts.ok then allAlerts.data else []
  let recent := listPage e .recent alertFields (e.collection docs .alerts)
    (tenantPage "alerts" tenantID 5 "triggered_at" true)
  let allIncidents := listPage e .allIncidents Incidents.incidentFields
    (e.collection docs .incidents) (tenantPage "incidents" tenantID 10000 "last_activity" false)
  let assets := listPage e .assets assetFields (e.collection docs .assets)
    (tenantPage "assets" tenantID 1 "" false)
  let vulns := listPage e .vulns vulnerabilityFields (e.collection docs .vulnerabilities)
    (tenantPage "vulnerabilities" tenantID 1 "" false)
  let crit := listPage e .critical vulnerabilityFields (e.collection docs .vulnerabilities)
    (criticalPage tenantID)
  { totalAlerts := alerts.length
    openAlerts := (alerts.filter (hasStatus ["active", "investigating"])).length
    totalIncidents := allIncidents.data.length
    openIncidents :=
      (allIncidents.data.filter (hasStatus ["new", "investigating", "contained"])).length
    totalAssets := assets.total
    totalVulns := vulns.total
    totalVulnerabilities := vulns.total
    criticalVulns := crit.total
    totalIOCs := countDocs e .iocCount (hasTenant tenantID) (docs .iocs)
    totalRisks := countDocs e .riskCount (hasTenant tenantID) (docs .identityRisks)
    totalReports := countDocs e .reportCount (hasTenant tenantID) (docs .reports)
    alertsByDay := alertsByDay clock (findRecentRange e clock (docs .alerts))
    alertsBySeverity := increments ∅ (alerts.map (·.text (str "severity")))
    incidentsByStatus := increments ∅ (allIncidents.data.map (·.text (str "status")))
    topTactics := topTactics order (aggregateByMitre e (docs .detectionRules))
    recentAlerts := recent.data.map fun d => ⟨d.text (str "_key"), d.text (str "name"),
      d.text (str "severity"), d.text (str "status"), d.text (str "triggered_at")⟩
    mttrHours := mttrHours e allIncidents.data }

/-- What `ExtendedStats` has beside the figures of `Stats`. -/
structure Extension where
  sourceBreakdown : List (GoString × ℤ)
  topAssets : List (GoString × GoString × ℤ)
  mitreCoverage : Option (GoMap ℤ)
  detectionRuleCount : ℤ
  activeRuleCount : ℤ
  iocCount : ℤ

/-- What `GetExtendedStats` adds to the figures of `GetStats`. -/
def extendedStats (tenantID : GoString) (docs : Docs) : Extension where
  sourceBreakdown := (aggregateBySourceType e tenantID (docs .alerts)).getD []
  topAssets := (aggregateTopAssets e tenantID 10 (docs .alerts)).getD []
  mitreCoverage := (aggregateByMitreTenant e tenantID (docs .detectionRules)).map fun m =>
    m.map fun _ techniques => (techniques.length : ℤ)
  detectionRuleCount := countDocs e .ruleTotal (hasTenant tenantID) (docs .detectionRules)
  activeRuleCount := countDocs e .ruleActive (fun d => hasTenant tenantID d && isActive d)
    (docs .detectionRules)
  iocCount := countDocs e .extendedIocCount (hasTenant tenantID) (docs .iocs)

end Dashboard

end Xsiam
