import Xsiam.Incidents.Causality

/-!
# What a correlation leaves of the links

A correlation that stores a graph for an incident should leave every correlated alert with a
reference to that incident, and the incident with a list of them
(`Xsiam.Incidents.Consistent`). It does so only where all of that was so before
(`Xsiam.Incidents.linksConsistently_iff`). Where an alert is linked already, nothing is written at
all. Where none is, the alerts get the ID of the new incident as their reference, and the queries
that list the alerts of an incident look for its key.
-/

namespace Xsiam

namespace Incidents

open Go Repository

/-! ### The alerts of an incident -/

/-- How the database lists alerts: the orders it sorts them into, how it compares times, and how
times are bound. -/
structure AlertLists where
  db : DBCollection Alert
  notBefore : Time → Time → Bool
  timeText : Time → GoString

namespace AlertLists

variable (lists : AlertLists)

/-- The collection, with the alerts of a store. -/
def on (alerts : AlertDocs) : DBCollection Alert := { lists.db with docs := alerts.docs }

/-- The list `ListAlerts` asks for. -/
def ofIncident (incidentKey : GoString) : ListOptions Alert :=
  AlertListFilter.toList lists.notBefore lists.timeText
    { incidentID := incidentKey, pageSize := 100 }

/-- `Service.ListAlerts` -/
def listAlerts (alerts : AlertDocs) (incidentKey : GoString) : Except GoString (List Alert) :=
  (findPaged (lists.on alerts) (lists.ofIncident incidentKey)).map (·.1)

/-- The first hundred alerts of an incident. -/
def firstAlerts (alerts : AlertDocs) (incidentKey : GoString) : List Alert :=
  ((lists.on alerts).matching (lists.ofIncident incidentKey)).take 100

theorem listAlerts_eq (alerts : AlertDocs) (incidentKey : GoString) :
    lists.listAlerts alerts incidentKey = .ok (lists.firstAlerts alerts incidentKey) := by
  have hsort : (lists.ofIncident incidentKey).SortsByPath :=
    ListOptions.sortsByPath_of_path (str "triggered_at") (by decide +kernel)
      (by decide +kernel) rfl
  obtain ⟨pageMeta, hpage⟩ := findPaged_first (c := lists.on alerts) hsort rfl
  rw [listAlerts, hpage]
  rfl

theorem mem_docs_of_mem_firstAlerts {alerts : AlertDocs} {incidentKey : GoString} {a : Alert}
    (h : a ∈ lists.firstAlerts alerts incidentKey) : a ∈ alerts.docs :=
  (mem_matching.mp (List.mem_of_mem_take h)).1

end AlertLists

theorem mem_listAlertKeys {alerts : AlertDocs} {key incidentKey : GoString} :
    key ∈ alerts.listAlertKeys incidentKey ↔
      ∃ d ∈ alerts.docs, d.incidentID = some incidentKey ∧ d.key = key := by
  simp [AlertDocs.listAlertKeys, and_assoc]

/-! ### Links that fit -/

/-- An incident that a text refers to, by its ID or its key. -/
def Incident.Named (inc : Incident) (ref : GoString) : Prop :=
  inc.incidentID = ref ∨ inc.key = ref

/-- The alert list of the incident with a key. -/
def alertsListed (s : Store) (key : GoString) : List GoString :=
  ((getByID s.incidents.docs key).map (·.alertIDs)).getD []

theorem alertsListed_of_mem {s : Store} {inc : Incident} (h : inc ∈ s.incidents.docs) :
    alertsListed s inc.key = inc.alertIDs := by
  obtain ⟨d, hd⟩ : ∃ d, getByID s.incidents.docs inc.key = some d := by
    rw [← Option.isSome_iff_exists, getByID, List.find?_isSome]
    exact ⟨inc, h, decide_eq_true rfl⟩
  have hkey : d.key = inc.key := by simpa using List.find?_some hd
  have heq := List.inj_on_of_nodup_map s.incidents.nodup_keys (List.mem_of_find?_eq_some hd) h hkey
  rw [alertsListed, hd, heq]
  rfl

/-- **The links fit**: every correlated alert refers to the incident, the incident lists them next
to those it listed before and counts what it lists, and both queries for the alerts of an
incident return them for its key. -/
structure Consistent (lists : AlertLists) (before after : Store) (ref : GoString)
    (alerts : List Alert) : Prop where
  linked : ∀ a ∈ alerts, ∀ d ∈ after.alerts.docs, d.alertID = a.alertID → d.incidentID = some ref
  incident : ∃ inc ∈ after.incidents.docs, inc.Named ref ∧
    (∀ id, id ∈ inc.alertIDs ↔
      id ∈ alertsListed before inc.key ∨ id ∈ alerts.map (·.alertID)) ∧
    inc.alertCount = inc.alertIDs.length ∧
    (∀ a ∈ alerts, a.key ∈ after.alerts.listAlertKeys inc.key) ∧
    ∃ page, lists.listAlerts after.alerts inc.key = .ok page ∧
      ∀ a ∈ alerts, ∃ d ∈ page, d.alertID = a.alertID

/-- The links fit already: all the alerts refer to one incident by its key, which lists and
counts them, and they are among the first hundred of its alerts. -/
def AlreadyLinked (lists : AlertLists) (s : Store) (alerts : List Alert) : Prop :=
  ∃ inc ∈ s.incidents.docs, (∀ a ∈ alerts, a.incidentID = some inc.key) ∧
    (∀ a ∈ alerts, a.alertID ∈ inc.alertIDs) ∧ inc.alertCount = inc.alertIDs.length ∧
    ∀ a ∈ alerts, a ∈ lists.firstAlerts s.alerts inc.key

namespace CausalityService

variable (svc : CausalityService) (lists : AlertLists)

/-- **What the correlation that an alert triggers should do to the links.** -/
def LinksConsistently (call : Call) (s : Store) (triggerAlertID : GoString) : Prop :=
  ∀ s' graph root, svc.triggerCorrelation call s triggerAlertID = (s', .ok (some graph)) →
    s.alerts.findByAlertID triggerAlertID = some root →
    Consistent lists s s' graph.incidentID (svc.findCorrelatedAlerts s.alerts root)

/-- Where no alert is linked, the links do not fit afterwards: the alerts have the ID of the new
incident, and no incident has it for a key. -/
theorem not_consistent_of_unlinked {call : Call} {s : Store} {alerts : List Alert}
    {graph : CausalityGraph} {ref : GoString} (hnone : firstLinked alerts = none)
    (hlen : 2 ≤ alerts.length) :
    ¬Consistent lists s (upsertGraph (svc.autoAggregateIncident call s alerts).1 graph) ref
      alerts := by
  rw [svc.autoAggregateIncident_of_unlinked hnone hlen]
  rintro ⟨-, inc, hinc, -, -, -, hkeys, -⟩
  obtain ⟨a, ha⟩ := List.exists_mem_of_length_pos (Nat.lt_of_lt_of_le Nat.two_pos hlen)
  obtain ⟨d, hd, href, hkey⟩ := mem_listAlertKeys.mp (hkeys a ha)
  rw [upsertGraph, AlertDocs.docs_linkAll] at hd
  obtain ⟨d₀, hd₀, rfl⟩ := List.mem_map.mp hd
  have hin : d₀.key ∈ alerts.map (·.key) := by
    have hkey₀ : d₀.key = a.key := by
      rw [AlertDocs.setAll] at hkey
      split at hkey <;> exact hkey
    exact hkey₀ ▸ List.mem_map_of_mem ha
  rw [AlertDocs.setAll, if_pos hin] at href
  have hnumber := IncidentDocs.number_keys _ inc hinc
  rw [← Option.some.inj href, digits_newIncidentID] at hnumber
  cases hnumber

/-- Where an alert is linked nothing is written, and the links fit where they did. -/
theorem consistent_of_linked_iff {call : Call} {s : Store} {alerts : List Alert}
    {graph : CausalityGraph} {ref : GoString} (hmem : ∀ a ∈ alerts, a ∈ s.alerts.docs)
    (hlinked : firstLinked alerts = some ref) :
    Consistent lists s (upsertGraph (svc.autoAggregateIncident call s alerts).1 graph) ref
      alerts ↔ AlreadyLinked lists s alerts := by
  rw [svc.autoAggregateIncident_of_linked hlinked]
  constructor
  · rintro ⟨hrefs, inc, hinc, -, hlist, hcount, hkeys, page, hpage, hpaged⟩
    have href (a : Alert) (ha : a ∈ alerts) : a.incidentID = some inc.key := by
      obtain ⟨d, hd, hdref, hdkey⟩ := mem_listAlertKeys.mp (hkeys a ha)
      rwa [← s.alerts.eq_of_key hd (hmem a ha) hdkey]
    refine ⟨inc, hinc, href, fun a ha => ?_, hcount, fun a ha => ?_⟩
    · exact (hlist _).mpr (Or.inr (List.mem_map_of_mem ha))
    · obtain rfl := Except.ok.inj ((lists.listAlerts_eq s.alerts inc.key).symm.trans hpage)
      obtain ⟨d, hd, hid⟩ := hpaged a ha
      rwa [← s.alerts.eq_of_alertID (lists.mem_docs_of_mem_firstAlerts hd) (hmem a ha) hid]
  · rintro ⟨inc, hinc, hrefs, hlist, hcount, hfirst⟩
    -- the first linked alert refers to the incident that all of them refer to
    obtain rfl : ref = inc.key := by
      obtain ⟨a, ha, href⟩ := List.exists_of_findSome?_eq_some hlinked
      exact Option.some.inj (href.symm.trans (hrefs a ha))
    refine ⟨fun a ha d hd hid => ?_, inc, hinc, Or.inr rfl, fun id => ?_, hcount,
      fun a ha => ?_, _, lists.listAlerts_eq _ _, fun a ha => ⟨a, hfirst a ha, rfl⟩⟩
    · rw [s.alerts.eq_of_alertID hd (hmem a ha) hid]
      exact hrefs a ha
    · rw [alertsListed_of_mem hinc]
      refine ⟨Or.inl, ?_⟩
      rintro (hold | hmap)
      · exact hold
      · obtain ⟨a, ha, rfl⟩ := List.mem_map.mp hmap
        exact hlist a ha
    · exact mem_listAlertKeys.mpr ⟨a, hmem a ha, hrefs a ha, rfl⟩

/-- **When a correlation leaves the links as they should be**: where it stores no graph, or where
they were so before. -/
theorem linksConsistently_iff (call : Call) (s : Store) (triggerAlertID : GoString) :
    svc.LinksConsistently lists call s triggerAlertID ↔
      ∀ root, s.alerts.findByAlertID triggerAlertID = some root →
        (svc.graphOf call.graphID root (svc.findCorrelatedAlerts s.alerts root)).isSome = true →
        AlreadyLinked lists s (svc.findCorrelatedAlerts s.alerts root) := by
  have hmem {root : Alert} (a : Alert) (ha : a ∈ svc.findCorrelatedAlerts s.alerts root) :
      a ∈ s.alerts.docs := (svc.mem_findCorrelatedAlerts.mp ha).1
  constructor
  · intro h root hroot hsome
    obtain ⟨found, hfound⟩ := Option.isSome_iff_exists.mp hsome
    have hfits := h _ _ root (svc.triggerCorrelation_eq_some.mpr
      ⟨root, found, hroot, hfound, rfl, rfl⟩) hroot
    have hlen := svc.two_le_of_graphOf hfound
    cases hlinked : firstLinked (svc.findCorrelatedAlerts s.alerts root) with
    | none => exact absurd hfits (svc.not_consistent_of_unlinked lists hlinked hlen)
    | some ref =>
      have href : (svc.autoAggregateIncident call s
          (svc.findCorrelatedAlerts s.alerts root)).2 = ref := by
        rw [svc.autoAggregateIncident_of_linked hlinked]
      exact (svc.consistent_of_linked_iff lists hmem hlinked).mp (href ▸ hfits)
  · rintro h s' graph root hrun hroot
    obtain ⟨root', found, hroot', hfound, rfl, rfl⟩ := svc.triggerCorrelation_eq_some.mp hrun
    obtain rfl := Option.some.inj (hroot'.symm.trans hroot)
    have halready := h root' hroot (Option.isSome_iff_exists.mpr ⟨found, hfound⟩)
    cases hlinked : firstLinked (svc.findCorrelatedAlerts s.alerts root') with
    | none =>
      -- two alerts are correlated at least, and each of them is linked already
      obtain ⟨a, ha⟩ := List.exists_mem_of_length_pos
        (Nat.lt_of_lt_of_le Nat.two_pos (svc.two_le_of_graphOf hfound))
      obtain ⟨inc, -, hrefs, -⟩ := halready
      exact absurd (hrefs a ha) (by rw [List.findSome?_eq_none_iff.mp hlinked a ha]; simp)
    | some ref =>
      have href : (svc.autoAggregateIncident call s
          (svc.findCorrelatedAlerts s.alerts root')).2 = ref := by
        rw [svc.autoAggregateIncident_of_linked hlinked]
      rw [href]
      exact (svc.consistent_of_linked_iff lists hmem hlinked).mpr halready

end CausalityService

/-! ### Two alerts that are not linked -/

/-- Lists in one order. -/
def sampleLists : AlertLists where
  db := .unsorted []
  notBefore t since := since ≤ t
  timeText _ := []

/-- Their correlation makes an incident whose alerts cannot be listed. -/
theorem not_linksConsistently : ¬∀ (svc : CausalityService) (lists : AlertLists) (call : Call)
    (s : Store) (triggerAlertID : GoString), svc.LinksConsistently lists call s triggerAlertID := by
  intro h
  obtain ⟨found, hfound⟩ := Option.isSome_iff_exists.mp sample_stores
  exact sampleService.not_consistent_of_unlinked sampleLists (by decide +kernel)
    (sampleService.two_le_of_graphOf hfound)
    (h sampleService sampleLists sampleCall sampleStore (str "ALT-1") _ _ _
      (sampleService.triggerCorrelation_eq_some.mpr
        ⟨_, found, sample_found, hfound, rfl, rfl⟩) sample_found)

end Incidents

end Xsiam
