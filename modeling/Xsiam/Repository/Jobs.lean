import Mathlib.Data.List.Perm.Subperm
import Xsiam.Identity.Exposure
import Xsiam.Incidents.SmartScore

/-!
# Jobs over a whole collection

The exports of `internal/domain/incident/handler.go` and `internal/domain/etl/handler.go`, and
what they and the two runs of `Xsiam.Identity` and `Xsiam.Incidents` have in common: each asks
`FindPaged` for a thousand or ten thousand documents on one page, and gets a hundred. A job meets
every document exactly where there are no more than that
(`Xsiam.Repository.jobsComplete_iff`).
-/

namespace Xsiam

namespace Repository

open Go Identity Incidents

/-! ### One page of all -/

section Page

variable {α : Type}

/-- The first documents are all of them where they are no more than fit. -/
theorem subperm_take_iff (ds : List α) (n : ℕ) :
    ds.Subperm (ds.take n) ↔ ds.length ≤ n := by
  constructor
  · intro h
    have hlen := h.length_le
    rw [List.length_take] at hlen
    omega
  · intro h
    rw [List.take_of_length_le h]

/-- The same for documents with a mark each that is its own. -/
theorem forall_mem_take_iff {ds : List α} (h : ds.Nodup) (n : ℕ) :
    (∀ d ∈ ds, d ∈ ds.take n) ↔ ds.length ≤ n := by
  rw [← subperm_take_iff]
  exact ⟨fun hsub => List.subperm_of_subset h hsub, fun hsub _ hd => hsub.subset hd⟩

end Page

/-! ### The exports -/

/-- The columns of a row of the incident export. -/
structure RowFormat where
  /-- `fmt.Sprintf("%.1f", x)` -/
  oneDigit : Float64 → GoString
  /-- `t.Format(time.RFC3339)` -/
  rfc3339 : Time → GoString

/-- The row of an incident. -/
def csvRow (fmt : RowFormat) (inc : Incident) : List GoString :=
  [inc.key, inc.title, inc.severity, inc.status.text, fmt.oneDigit inc.smartScore,
    str (toString inc.alertCount), fmt.rfc3339 inc.createdAt]

/-- The first row. -/
def csvHeader : List GoString :=
  [str "_key", str "title", str "severity", str "status", str "smart_score", str "alert_count",
    str "created_at"]

/-- The list `Export` asks for. -/
def exportedIncidents (tenantID : GoString) : ListOptions Incident :=
  IncidentListFilter.toList { tenantID, pageSize := 10000, page := 1 }

/-- The rows the incident `Export` writes behind the first one. -/
def exportRows (fmt : RowFormat) (c : DBCollection Incident) (tenantID : GoString) :
    Except GoString (List (List GoString)) :=
  (findPaged c (exportedIncidents tenantID)).map fun r => r.1.map (csvRow fmt)

/-- The incident `Export`. -/
def exportIncidents (fmt : RowFormat) (c : DBCollection Incident) (tenantID : GoString) :
    Except GoString (List (List GoString)) :=
  (exportRows fmt c tenantID).map (csvHeader :: ·)

/-- `ETLRuleListFilter` -/
structure ETLRuleListFilter where
  tenantID : GoString := []
  isEnabled : Option Bool := none
  dataset : GoString := []
  page : ℤ := 0
  pageSize : ℤ := 0

/-- The options `ETLRuleRepo.List` hands to `FindPaged`. -/
def ETLRuleListFilter.toList (f : ETLRuleListFilter) : ListOptions ETLRule where
  collection := str "etl_rules"
  filters :=
    equalFilter "doc.tenant_id == @tenant_id" (f.tenantID ≠ []) (·.tenantID = f.tenantID) ++
      equalFilter "doc.is_enabled == @is_enabled" f.isEnabled.isSome
        (some ·.isEnabled = f.isEnabled) ++
      equalFilter "(LENGTH(doc.match.dataset) == 0 OR @dataset IN doc.match.dataset)"
        (f.dataset ≠ []) (fun r => r.matchCriteria.dataset.isEmpty ||
          r.matchCriteria.dataset.contains f.dataset)
  bindVars :=
    bindIf "dataset" (f.dataset ≠ []) (.str f.dataset) <|
      bindIf "is_enabled" f.isEnabled.isSome (.bool (f.isEnabled.getD false)) <|
      bindIf "tenant_id" (f.tenantID ≠ []) (.str f.tenantID) ∅
  sortBy := str "priority"
  page := f.page
  pageSize := f.pageSize

/-- The list the rule `Export` asks for. -/
def exportedRules : ListOptions ETLRule := ETLRuleListFilter.toList { pageSize := 10000, page := 1 }

/-- The rule `Export`, which exports nothing where the list fails. -/
def exportRules (c : DBCollection ETLRule) : List ETLRule :=
  match findPaged c exportedRules with
  | .ok (rules, _) => rules
  | .error _ => []

/-! ### What the jobs are for -/

/-- The collections the jobs work on. A key is that of one document. -/
structure Database where
  exposure : ExposureDb
  incidents : DBCollection Incident
  rules : DBCollection ETLRule
  nodup_keys : (incidents.docs.map (·.key)).Nodup

/-- The final statuses of an incident. -/
def Final (s : Status) : Prop := s.text = str "resolved" ∨ s.text = str "closed"

/-- The incidents of a tenant. -/
def Database.incidentsOf (db : Database) (tenantID : GoString) : List Incident :=
  db.incidents.docs.filter fun i => OfTenant tenantID i.tenantID

section Jobs

variable (ops : FloatOps) (alertKeys : GoString → List GoString) (now : GoString → Time)
  (cache : GoMap SmartScoreEntry) (fmt : RowFormat) (db : Database) (tenantID : GoString)

/-- **The jobs meet every document**: each open vulnerability of the tenant is scored for each
asset it affects, each incident of the tenant that is not final gets its smart score, and the
exports have all incidents of the tenant and all rules. -/
structure JobsComplete : Prop where
  scores : ∃ ds written, recalcAll ops db.exposure tenantID = .ok (ds, written) ∧
    ∀ v ∈ db.exposure.vulns.docs, OfTenant tenantID v.tenantID → v.isOpen = true →
      ∀ a ∈ v.affectedAssetIDs, ∃ w ∈ written, w.tenantID = tenantID ∧ w.pair = (a, v.cveID)
  smartScores : ∀ i ∈ db.incidentsOf tenantID, ¬Final i.status →
    i.key ∈ (recalcForTenant ops alertKeys now cache db.incidents tenantID).1.calculated
  incidents : ∃ rows, exportRows fmt db.incidents tenantID = .ok rows ∧
    ((db.incidentsOf tenantID).map (csvRow fmt)).Subperm rows
  rules : db.rules.docs.Subperm (exportRules db.rules)

/-- The list `RecalcAll` asks for. -/
def tenantVulns : ListOptions Vulnerability :=
  VulnerabilityListFilter.toList { tenantID, pageSize := 10000, page := 1 }

/-- A pair that `RecalcAll` reaches: one of the tenant's first hundred vulnerabilities is open and
is about the pair, and no other tenant has the score for it. -/
def Reached (p : GoString × GoString) : Prop :=
  (∃ v ∈ (db.exposure.vulns.matching (tenantVulns tenantID)).take 100,
    v.isOpen = true ∧ v.cveID = p.2 ∧ p.1 ∈ v.targets) ∧
  ∀ s, db.exposure.scores.find? (fun d => d.pair = p) = some s → s.tenantID = tenantID

/-- The scores that are written for a list of vulnerabilities. -/
theorem exists_mem_scoresOf_iff {assets : GoString → Option Asset} {vs : List Vulnerability}
    {p : GoString × GoString} :
    (∃ s ∈ scoresOf ops assets tenantID vs, s.pair = p) ↔
      ∃ v ∈ vs, v.isOpen = true ∧ v.cveID = p.2 ∧ p.1 ∈ v.targets := by
  constructor
  · rintro ⟨s, hs, rfl⟩
    obtain ⟨v, hv, hmem⟩ := List.mem_flatMap.mp hs
    obtain ⟨a, ha, rfl⟩ := List.mem_map.mp hmem
    obtain ⟨hvs, hopen⟩ := List.mem_filter.mp hv
    exact ⟨v, hvs, hopen, rfl, ha⟩
  · rintro ⟨v, hvs, hopen, hcve, ha⟩
    refine ⟨_, List.mem_flatMap.mpr ⟨v, List.mem_filter.mpr ⟨hvs, hopen⟩,
      List.mem_map_of_mem ha⟩, ?_⟩
    exact Prod.ext rfl hcve

theorem tenantID_scoresOf {assets : GoString → Option Asset} {vs : List Vulnerability} :
    ∀ s ∈ scoresOf ops assets tenantID vs, s.tenantID = tenantID := by
  intro s hs
  obtain ⟨v, -, hmem⟩ := List.mem_flatMap.mp hs
  obtain ⟨a, -, rfl⟩ := List.mem_map.mp hmem
  rfl

/-- The pairs `RecalcAll` writes a score of the tenant for. -/
theorem recalcAll_reaches : ∃ ds written, recalcAll ops db.exposure tenantID = .ok (ds, written) ∧
    ∀ p, (∃ w ∈ written, w.tenantID = tenantID ∧ w.pair = p) ↔ Reached db tenantID p := by
  have hsort : (tenantVulns tenantID).SortsByPath :=
    ListOptions.sortsByPath_of_path (str "created_at") (by decide +kernel) (by decide +kernel) rfl
  obtain ⟨pageMeta, hpage⟩ := findPaged_first (c := db.exposure.vulns) hsort rfl
  have hrun : recalcAll ops db.exposure tenantID = .ok (writeAll db.exposure.scores
      (scoresOf ops db.exposure.assets tenantID
        ((db.exposure.vulns.matching (tenantVulns tenantID)).take 100))) := by
    rw [tenantVulns] at hpage
    rw [recalcAll, hpage]
    rfl
  refine ⟨_, _, hrun, fun p => ?_⟩
  rw [writeAll_iff (tenantID_scoresOf ops tenantID), exists_mem_scoresOf_iff, ownerOf_eq_iff,
    Reached]

theorem passes_openIncidents {i : Incident} : (openIncidents tenantID).passes i = true ↔
    OfTenant tenantID i.tenantID ∧ i.status.text = str "open" := by
  have hopen : str "open" ≠ [] := by decide
  rw [← all_tenantFilter]
  simp [openIncidents, IncidentListFilter.toList, ListOptions.passes, equalFilter, hopen]

theorem passes_exportedIncidents {i : Incident} : (exportedIncidents tenantID).passes i = true ↔
    OfTenant tenantID i.tenantID := by
  rw [← all_tenantFilter]
  simp [exportedIncidents, IncidentListFilter.toList, ListOptions.passes, equalFilter]

/-- A status that is the text `open` is not final. -/
theorem not_final_of_open {s : Status} (h : s.text = str "open") : ¬Final s := by
  rw [Final, h]
  decide

/-- The incidents that are listed as open. -/
theorem mem_openIncidents {i : Incident} :
    i ∈ db.incidents.matching (openIncidents tenantID) ↔
      i ∈ db.incidentsOf tenantID ∧ i.status.text = str "open" := by
  rw [mem_matching, passes_openIncidents, Database.incidentsOf, List.mem_filter,
    decide_eq_true_iff, and_assoc]

/-- The incidents whose smart scores are calculated are all of the tenant that are not final, if
no such incident has another status than the text `open` and they fit on a page. -/
theorem smartScores_iff : (∀ i ∈ db.incidentsOf tenantID, ¬Final i.status →
      i.key ∈ (recalcForTenant ops alertKeys now cache db.incidents tenantID).1.calculated) ↔
    (∀ i ∈ db.incidentsOf tenantID, ¬Final i.status → i.status.text = str "open") ∧
      (db.incidents.matching (openIncidents tenantID)).length ≤ 100 := by
  have hdocs {i : Incident} (hi : i ∈ db.incidentsOf tenantID) : i ∈ db.incidents.docs :=
    List.mem_of_mem_filter hi
  have hnodup : (db.incidents.matching (openIncidents tenantID)).Nodup :=
    (db.incidents.perm ..).nodup_iff.mpr ((List.Nodup.of_map _ db.nodup_keys).filter _)
  -- a key is that of one incident, so it is on the page exactly where its incident is
  have hkey {i : Incident} (hi : i ∈ db.incidentsOf tenantID) :
      i.key ∈ ((db.incidents.matching (openIncidents tenantID)).take 100).map (·.key) ↔
        i ∈ (db.incidents.matching (openIncidents tenantID)).take 100 := by
    refine ⟨fun hmem => ?_, fun hmem => List.mem_map_of_mem hmem⟩
    obtain ⟨d, hd, heq⟩ := List.mem_map.mp hmem
    have hddocs := (mem_matching.mp (List.mem_of_mem_take hd)).1
    rwa [← List.inj_on_of_nodup_map db.nodup_keys hddocs (hdocs hi) heq]
  rw [(calculated_recalcForTenant ops alertKeys now cache db.incidents tenantID).1,
    ← forall_mem_take_iff hnodup]
  constructor
  · intro h
    refine ⟨fun i hi hfinal => ?_, fun i hi => ?_⟩
    · have hpage := List.mem_of_mem_take ((hkey hi).mp (h i hi hfinal))
      exact ((mem_openIncidents db tenantID).mp hpage).2
    · obtain ⟨hof, hopen⟩ := (mem_openIncidents db tenantID).mp hi
      exact (hkey hof).mp (h i hof (not_final_of_open hopen))
  · rintro ⟨hopen, hfit⟩ i hi hfinal
    exact (hkey hi).mpr (hfit i ((mem_openIncidents db tenantID).mpr ⟨hi, hopen i hi hfinal⟩))

/-- The rows of the incident export, and of which incidents they are. -/
theorem exportRows_eq : exportRows fmt db.incidents tenantID =
    .ok (((db.incidents.matching (exportedIncidents tenantID)).take 100).map (csvRow fmt)) := by
  have hsort : (exportedIncidents tenantID).SortsByPath :=
    ListOptions.sortsByPath_of_path (str "last_activity") (by decide +kernel)
      (by decide +kernel) rfl
  obtain ⟨pageMeta, hpage⟩ := findPaged_first (c := db.incidents) hsort rfl
  rw [exportRows, hpage]
  rfl

theorem perm_exportedIncidents :
    (db.incidents.matching (exportedIncidents tenantID)).Perm (db.incidentsOf tenantID) := by
  rw [Database.incidentsOf, DBCollection.matching]
  refine (db.incidents.perm ..).trans (List.Perm.of_eq (List.filter_congr fun i _ => ?_))
  rw [Bool.eq_iff_iff, passes_exportedIncidents, decide_eq_true_iff]

/-- The rows of a page have a row for each document where the documents fit on it. -/
theorem subperm_rows_iff {α β : Type} {ds page : List α} (hperm : page.Perm ds) (row : α → β)
    (n : ℕ) : (ds.map row).Subperm ((page.take n).map row) ↔ ds.length ≤ n := by
  rw [← (hperm.map row).subperm_right, List.map_take, subperm_take_iff, List.length_map,
    hperm.length_eq]

theorem exportRules_eq (c : DBCollection ETLRule) :
    exportRules c = (c.matching exportedRules).take 100 := by
  have hsort : exportedRules.SortsByPath := by decide +kernel
  obtain ⟨pageMeta, hpage⟩ := findPaged_first (c := c) hsort rfl
  rw [exportRules, hpage]
  rfl

theorem perm_exportedRules (c : DBCollection ETLRule) : (c.matching exportedRules).Perm c.docs := by
  rw [DBCollection.matching]
  refine (c.perm ..).trans (List.Perm.of_eq (List.filter_eq_self.mpr fun r _ => ?_))
  rfl

/-- **When the jobs meet every document.** -/
theorem jobsComplete_iff : JobsComplete ops alertKeys now cache fmt db tenantID ↔
    (∀ v ∈ db.exposure.vulns.docs, OfTenant tenantID v.tenantID → v.isOpen = true →
      ∀ a ∈ v.affectedAssetIDs, Reached db tenantID (a, v.cveID)) ∧
    ((∀ i ∈ db.incidentsOf tenantID, ¬Final i.status → i.status.text = str "open") ∧
      (db.incidents.matching (openIncidents tenantID)).length ≤ 100) ∧
    (db.incidentsOf tenantID).length ≤ 100 ∧ db.rules.docs.length ≤ 100 := by
  obtain ⟨ds, written, hrun, hreach⟩ := recalcAll_reaches ops db tenantID
  have hrules : db.rules.docs.Subperm (exportRules db.rules) ↔ db.rules.docs.length ≤ 100 := by
    have hrows := subperm_rows_iff (perm_exportedRules db.rules) id 100
    rwa [List.map_id, List.map_id, ← exportRules_eq] at hrows
  rw [← smartScores_iff ops alertKeys now cache db tenantID,
    ← subperm_rows_iff (perm_exportedIncidents db tenantID) (csvRow fmt), ← hrules]
  constructor
  · rintro ⟨⟨ds', written', hrun', hscores⟩, hsmart, ⟨rows, hrows, hincidents⟩, hrules⟩
    obtain ⟨rfl, rfl⟩ : ds = ds' ∧ written = written' := by
      simpa using hrun.symm.trans hrun'
    obtain rfl := Except.ok.inj ((exportRows_eq fmt db tenantID).symm.trans hrows)
    exact ⟨fun v hv hof hopen a ha => (hreach _).mp (hscores v hv hof hopen a ha), hsmart,
      hincidents, hrules⟩
  · rintro ⟨hscores, hsmart, hincidents, hrules⟩
    exact ⟨⟨ds, written, hrun, fun v hv hof hopen a ha =>
      (hreach _).mpr (hscores v hv hof hopen a ha)⟩, hsmart,
      ⟨_, exportRows_eq fmt db tenantID, hincidents⟩, hrules⟩

end Jobs

/-! ### An incident that is new -/

/-- One incident, which is new. -/
def newIncident : Database where
  exposure := ⟨.unsorted [], fun _ => none, []⟩
  incidents := .unsorted
    [{ key := str "1", incidentID := str "INC-1", tenantID := str "t1", status := .new }]
  rules := .unsorted []
  nodup_keys := List.nodup_singleton _

/-- Its smart score is not calculated. -/
theorem not_jobsComplete : ∃ db tenantID, ∀ ops alertKeys now cache fmt,
    ¬JobsComplete ops alertKeys now cache fmt db tenantID := by
  refine ⟨newIncident, str "t1", fun ops alertKeys now cache fmt h => ?_⟩
  obtain ⟨hopen, -⟩ := (smartScores_iff ops alertKeys now cache _ _).mp h.smartScores
  exact absurd (hopen _ (List.mem_filter.mpr ⟨List.mem_singleton_self _, by decide⟩)
    (by rw [Final]; decide)) (by decide)

end Repository

end Xsiam
