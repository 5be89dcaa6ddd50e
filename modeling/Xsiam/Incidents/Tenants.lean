import Mathlib.Algebra.Order.BigOperators.Group.List
import Xsiam.Incidents.Causality

/-!
# Correlation and the tenants

What an alert of a tenant sets off should depend on that tenant's alerts alone, write to no
other's, and make an incident that is the tenant's (`Xsiam.Incidents.Isolated`). None of the
queries names a tenant, nor does the incident: it is so exactly where all the alerts that are
found are the tenant's and one of them has an incident, or where no graph is stored, with the other
tenants' alerts and without them (`Xsiam.Incidents.CausalityService.isolated_iff`).
-/

namespace Xsiam

namespace Incidents

open Go

/-! ### One tenant's alerts -/

/-- An alert of a tenant. -/
def isOf (tenantID : GoString) (a : Alert) : Bool := a.tenantID = tenantID

namespace AlertDocs

variable (alerts : AlertDocs)

/-- The alerts of one tenant alone. -/
def ofTenant (tenantID : GoString) : AlertDocs where
  docs := alerts.docs.filter (isOf tenantID)
  nodup_keys := (List.filter_sublist.map _).nodup alerts.nodup_keys
  nodup_ids := (List.filter_sublist.map _).nodup alerts.nodup_ids

/-- An alert is found by its ID. -/
theorem findByAlertID_eq_some {alertID : GoString} {a : Alert} :
    alerts.findByAlertID alertID = some a ↔ a ∈ alerts.docs ∧ a.alertID = alertID := by
  constructor
  · intro h
    exact ⟨List.mem_of_find?_eq_some h, by simpa using List.find?_some h⟩
  · rintro ⟨ha, rfl⟩
    cases hfind : alerts.findByAlertID a.alertID with
    | none => exact absurd (decide_eq_true rfl) (List.find?_eq_none.mp hfind a ha)
    | some b =>
      have hid : b.alertID = a.alertID := by simpa using List.find?_some hfind
      rw [alerts.eq_of_alertID (List.mem_of_find?_eq_some hfind) ha hid]

/-- So is an alert of the tenant, among the tenant's. -/
theorem findByAlertID_ofTenant {alertID : GoString} {root : Alert}
    (h : alerts.findByAlertID alertID = some root) :
    (alerts.ofTenant root.tenantID).findByAlertID alertID = some root := by
  obtain ⟨hmem, hid⟩ := (alerts.findByAlertID_eq_some).mp h
  refine (findByAlertID_eq_some _).mpr ⟨List.mem_filter.mpr ⟨hmem, ?_⟩, hid⟩
  exact decide_eq_true rfl

end AlertDocs

/-- The store of one tenant alone: the other alerts are gone. -/
def Store.ofTenant (s : Store) (tenantID : GoString) : Store :=
  { s with alerts := s.alerts.ofTenant tenantID }

/-! ### What is found among them -/

namespace CausalityService

variable (svc : CausalityService)

/-- Leaving alerts out and dropping duplicates, in either order: what has been seen needs to
agree on the alerts that stay. -/
theorem filter_dedup (p : Alert → Bool) {as : List Alert}
    (hsame : ∀ a ∈ as, ∀ b ∈ as, a.alertID = b.alertID → p a = p b) :
    ∀ {seen seen' : List GoString},
      (∀ a ∈ as, p a = true → (a.alertID ∈ seen ↔ a.alertID ∈ seen')) →
      (dedup seen as).filter p = dedup seen' (as.filter p) := by
  induction as with
  | nil => intro seen seen' _; rfl
  | cons a as ih =>
    intro seen seen' hseen
    have hrest := @ih fun b hb c hc => hsame b (List.mem_cons_of_mem _ hb) c
      (List.mem_cons_of_mem _ hc)
    cases hp : p a with
    | false =>
      rw [List.filter_cons_of_neg (by rw [hp]; exact Bool.false_ne_true), dedup]
      split
      · exact hrest fun b hb => hseen b (List.mem_cons_of_mem _ hb)
      · rw [List.filter_cons_of_neg (by rw [hp]; exact Bool.false_ne_true)]
        refine hrest fun b hb hpb => ?_
        -- an alert that stays does not have the ID of one that goes
        have hne : b.alertID ≠ a.alertID := fun heq => by
          have hab := hsame b (List.mem_cons_of_mem _ hb) a List.mem_cons_self heq
          rw [hpb, hp] at hab
          cases hab
        rw [List.mem_cons, or_iff_right hne]
        exact hseen b (List.mem_cons_of_mem _ hb) hpb
    | true =>
      rw [List.filter_cons_of_pos hp, dedup, dedup]
      have ha := hseen a List.mem_cons_self hp
      by_cases hin : a.alertID ∈ seen
      · rw [if_pos hin, if_pos (ha.mp hin)]
        exact hrest fun b hb => hseen b (List.mem_cons_of_mem _ hb)
      · rw [if_neg hin, if_neg fun h => hin (ha.mpr h), List.filter_cons_of_pos hp]
        refine congrArg (a :: ·) (hrest fun b hb hpb => ?_)
        rw [List.mem_cons, List.mem_cons, hseen b (List.mem_cons_of_mem _ hb) hpb]

theorem findSince_ofTenant (alerts : AlertDocs) (tenantID : GoString) (test : Alert → Bool)
    (since : Time) : (alerts.ofTenant tenantID).findSince svc.notBefore test since =
      (alerts.findSince svc.notBefore test since).filter (isOf tenantID) :=
  List.filter_comm ..

/-- **Among one tenant's alerts, the tenant's share of the correlated ones is found.** -/
theorem findCorrelatedAlerts_ofTenant (alerts : AlertDocs) (tenantID : GoString) (root : Alert) :
    svc.findCorrelatedAlerts (alerts.ofTenant tenantID) root =
      (svc.findCorrelatedAlerts alerts root).filter (isOf tenantID) := by
  have hdocs {test : Alert → Bool} {a : Alert}
      (ha : a ∈ alerts.findSince svc.notBefore test (since root)) : a ∈ alerts.docs :=
    List.mem_of_mem_filter ha
  have hmem {a : Alert} (ha : a ∈ alerts.findByAssetSince svc.notBefore root.assetID (since root) ++
      alerts.findByIocValues svc.notBefore (root.iocs.map (·.value)) (since root) ++
      alerts.findByUser svc.notBefore root.userName (since root)) : a ∈ alerts.docs := by
    rcases List.mem_append.mp ha with ha | ha
    · exact (List.mem_append.mp ha).elim hdocs hdocs
    · exact hdocs ha
  rw [findCorrelatedAlerts, findCorrelatedAlerts, filter_dedup (isOf tenantID)
    (fun a ha b hb heq => by rw [alerts.eq_of_alertID (hmem ha) (hmem hb) heq])
    (fun _ _ _ => Iff.rfl), List.filter_append, List.filter_append]
  simp only [AlertDocs.findByAssetSince, AlertDocs.findByIocValues, AlertDocs.findByUser,
    findSince_ofTenant]

end CausalityService

/-! ### How many edges there are -/

theorem alertNode_inj {a b : Alert} (h : alertNode a = alertNode b) : a.alertID = b.alertID :=
  List.append_cancel_left h

theorem alertNode_ne_assetNode (a : Alert) (assetID : GoString) :
    alertNode a ≠ assetNode assetID := by
  intro h
  rw [alertNode, assetNode, show str "alert:" = 0x61 :: 0x6C :: str "ert:" from rfl,
    show str "asset:" = 0x61 :: 0x73 :: str "set:" from rfl] at h
  simp at h

/-- The nodes there are after an alert has been added. -/
theorem mem_seen_addAlert {g : Dag} {a : Alert} {isRoot : Bool} {id : GoString}
    (h : id ∈ (g.addAlert a isRoot).seen) :
    id ∈ g.seen ∨ id = alertNode a ∨ ∃ assetID, id = assetNode assetID := by
  rw [Dag.addAlert] at h
  split at h
  · exact Or.inl h
  · cases hasset : a.assetID with
    | none =>
      simp only [hasset, List.mem_cons] at h
      exact h.elim (Or.inr ∘ Or.inl) Or.inl
    | some assetID =>
      simp only [hasset, Dag.addAsset] at h
      split at h
      · exact (List.mem_cons.mp h).elim (Or.inr ∘ Or.inl) Or.inl
      · rcases List.mem_cons.mp h with h | h
        · exact Or.inr (Or.inr ⟨assetID, h⟩)
        · exact (List.mem_cons.mp h).elim (Or.inr ∘ Or.inl) Or.inl

/-- The edge to the asset of an alert, if it has one. -/
def assetEdges (a : Alert) : ℕ := if a.assetID.isSome then 1 else 0

theorem length_edges_addAlert {g : Dag} {a : Alert} {isRoot : Bool} (h : alertNode a ∉ g.seen) :
    (g.addAlert a isRoot).edges.length = g.edges.length + assetEdges a := by
  rw [Dag.addAlert, if_neg h, assetEdges]
  cases a.assetID with
  | none => rfl
  | some assetID => simp

/-- The edges an alert brings that is not the root: one from the root, and that to its asset. -/
def edgesOf (a : Alert) : ℕ := assetEdges a + 1

section Edges

variable (ops : FloatOps) (root : Alert)

/-- The alerts that are not the root. -/
def notRoot (a : Alert) : Bool := a.alertID ≠ root.alertID

theorem length_edges_buildLoop {as : List Alert} (hnodup : (as.map (·.alertID)).Nodup) :
    ∀ {g : Dag}, (∀ a ∈ as, notRoot root a = true → alertNode a ∉ g.seen) →
      (buildLoop ops root g as).edges.length =
        g.edges.length + ((as.filter (notRoot root)).map edgesOf).sum := by
  induction as with
  | nil => intro g _; rfl
  | cons a as ih =>
    intro g hseen
    obtain ⟨hfresh, hnodup⟩ := List.nodup_cons.mp hnodup
    rw [buildLoop]
    by_cases hroot : a.alertID = root.alertID
    · have hdrop : notRoot root a = false := by simp [notRoot, hroot]
      rw [if_pos hroot, List.filter_cons_of_neg (by rw [hdrop]; exact Bool.false_ne_true)]
      exact ih hnodup fun b hb => hseen b (List.mem_cons_of_mem _ hb)
    · have hkeep : notRoot root a = true := by simp [notRoot, hroot]
      rw [if_neg hroot, List.filter_cons_of_pos hkeep, List.map_cons, List.sum_cons]
      dsimp only
      rw [ih hnodup, List.length_append, length_edges_addAlert (hseen a List.mem_cons_self hkeep),
        edgesOf]
      · simp only [List.length_singleton]
        omega
      · -- the new nodes are the alert's and an asset's, and neither is that of a later alert
        intro b hb hnot hmem
        rcases mem_seen_addAlert hmem with hold | heq | ⟨assetID, heq⟩
        · exact hseen b (List.mem_cons_of_mem _ hb) hnot hold
        · exact hfresh (List.mem_map.mpr ⟨b, hb, alertNode_inj heq⟩)
        · exact alertNode_ne_assetNode b assetID heq

/-- **How many edges a graph has.** -/
theorem edgeCount_buildDAG (graphID : GoString) {alerts : List Alert}
    (hnodup : (alerts.map (·.alertID)).Nodup) : (buildDAG ops graphID root alerts).edgeCount =
      ((assetEdges root + ((alerts.filter (notRoot root)).map edgesOf).sum : ℕ) : ℤ) := by
  refine congrArg Nat.cast ?_
  rw [length_edges_buildLoop ops root hnodup, length_edges_addAlert List.not_mem_nil]
  · simp
  · intro a _ hnot hmem
    rcases mem_seen_addAlert hmem with hold | heq | ⟨assetID, heq⟩
    · exact absurd hold List.not_mem_nil
    · simp [notRoot, alertNode_inj heq] at hnot
    · exact alertNode_ne_assetNode a assetID heq

/-- Without some of its alerts a graph has fewer edges. -/
theorem edgeCount_filter_lt (graphID : GoString) {alerts : List Alert}
    (hnodup : (alerts.map (·.alertID)).Nodup) {p : Alert → Bool} {a : Alert} (ha : a ∈ alerts)
    (hp : p a = false) (hroot : notRoot root a = true) :
    (buildDAG ops graphID root (alerts.filter p)).edgeCount <
      (buildDAG ops graphID root alerts).edgeCount := by
  rw [edgeCount_buildDAG ops root graphID hnodup,
    edgeCount_buildDAG ops root graphID ((List.filter_sublist.map _).nodup hnodup),
    List.filter_comm]
  refine Nat.cast_lt.mpr (Nat.add_lt_add_left ?_ _)
  have hperm := (List.filter_append_perm p (alerts.filter (notRoot root))).map edgesOf
  rw [← hperm.sum_eq, List.map_append, List.sum_append]
  have hle := List.le_sum_of_mem (List.mem_map_of_mem (f := edgesOf)
    (List.mem_filter.mpr ⟨List.mem_filter.mpr ⟨ha, hroot⟩, by simp [hp]⟩ :
      a ∈ (alerts.filter (notRoot root)).filter fun b => !p b))
  rw [edgesOf] at hle
  omega

end Edges

/-! ### What a tenant's alert sets off -/

/-- What a correlation comes to: the store, and what it returns. -/
abbrev Outcome := Store × Except GoString (Option CausalityGraph)

/-- **What an alert of a tenant sets off is the tenant's**: what a correlation comes to with all
alerts is, as far as the tenant is concerned, what it comes to with the tenant's alone, the other
alerts are what they were, and the incidents that are new are the tenant's. -/
structure Isolated (tenantID : GoString) (s : Store) (all own : Outcome) : Prop where
  outcome : all.2 = own.2
  alerts : all.1.alerts.docs.filter (isOf tenantID) = own.1.alerts.docs
  incidents : all.1.incidents.docs = own.1.incidents.docs
  nodes : all.1.nodes = own.1.nodes
  edges : all.1.edges = own.1.edges
  others : (all.1.alerts.docs.filter fun a => !isOf tenantID a) =
    s.alerts.docs.filter fun a => !isOf tenantID a
  created : ∃ new, all.1.incidents.docs = s.incidents.docs ++ new ∧
    ∀ inc ∈ new, inc.tenantID = tenantID

namespace CausalityService

variable (svc : CausalityService) (call : Call) (s : Store)

/-- The correlation that an alert triggers, with all alerts and with its tenant's. -/
def TriggersIsolated (triggerAlertID : GoString) : Prop :=
  ∀ root, s.alerts.findByAlertID triggerAlertID = some root →
    Isolated root.tenantID s (svc.triggerCorrelation call s triggerAlertID)
      (svc.triggerCorrelation call (s.ofTenant root.tenantID) triggerAlertID)

/-- A call that stores no graph, or stores none for the tenant's alerts. -/
theorem triggerCorrelation_of_none {triggerAlertID : GoString} {root : Alert}
    (hroot : s.alerts.findByAlertID triggerAlertID = some root)
    (hnone : svc.graphOf call.graphID root (svc.findCorrelatedAlerts s.alerts root) = none) :
    svc.triggerCorrelation call s triggerAlertID = (s, .ok none) := by
  simp only [triggerCorrelation, hroot, hnone]

/-- A call that stores a graph. -/
theorem triggerCorrelation_of_some {triggerAlertID : GoString} {root : Alert} {found : List Alert}
    {graph : CausalityGraph} (hroot : s.alerts.findByAlertID triggerAlertID = some root)
    (hfound : svc.findCorrelatedAlerts s.alerts root = found)
    (hgraph : svc.graphOf call.graphID root found = some graph) {ref : GoString}
    (href : (svc.autoAggregateIncident call s found).2 = ref) :
    svc.triggerCorrelation call s triggerAlertID =
      (upsertGraph (svc.autoAggregateIncident call s found).1 { graph with incidentID := ref },
        .ok (some { graph with incidentID := ref })) := by
  subst hfound href
  exact svc.triggerCorrelation_eq_some.mpr ⟨root, graph, hroot, hgraph, rfl, rfl⟩

/-- The incident of a graph is a matter of the alerts. -/
theorem snd_autoAggregateIncident (s s' : Store) (alerts : List Alert) :
    (svc.autoAggregateIncident call s alerts).2 = (svc.autoAggregateIncident call s' alerts).2 := by
  rw [autoAggregateIncident, autoAggregateIncident]
  split
  · rfl
  · split <;> rfl

/-- Nothing is stored in either case. -/
theorem isolated_of_none {tenantID : GoString} :
    Isolated tenantID s (s, .ok none) (s.ofTenant tenantID, .ok none) :=
  ⟨rfl, rfl, rfl, rfl, rfl, rfl, [], (List.append_nil _).symm, fun _ h => absurd h List.not_mem_nil⟩

/-- A patch of the references leaves the tenants alone. -/
theorem isOf_setAll (tenantID ref : GoString) (keys : List GoString) (a : Alert) :
    isOf tenantID (AlertDocs.setAll ref keys a) = isOf tenantID a := by
  rw [AlertDocs.setAll]
  split <;> rfl

theorem filter_docs_linkAll (alerts : AlertDocs) (p : Alert → Bool) {ref : GoString}
    {keys : List GoString} (hp : ∀ a, p (AlertDocs.setAll ref keys a) = p a) :
    (AlertDocs.linkAll ref keys alerts).docs.filter p =
      (alerts.docs.filter p).map (AlertDocs.setAll ref keys) := by
  rw [AlertDocs.docs_linkAll, List.filter_map]
  exact congrArg _ (List.filter_congr fun a _ => hp a)

variable {call s}

/-- All the alerts are the tenant's, and one of them has an incident. -/
theorem isolated_of_linked {tenantID ref : GoString} {alerts : List Alert} {graph : CausalityGraph}
    (hlinked : firstLinked alerts = some ref) : Isolated tenantID s
      (upsertGraph (svc.autoAggregateIncident call s alerts).1 graph, .ok (some graph))
      (upsertGraph (svc.autoAggregateIncident call (s.ofTenant tenantID) alerts).1 graph,
        .ok (some graph)) := by
  rw [svc.autoAggregateIncident_of_linked hlinked, svc.autoAggregateIncident_of_linked hlinked]
  exact ⟨rfl, rfl, rfl, rfl, rfl, rfl, [], (List.append_nil _).symm,
    fun _ h => absurd h List.not_mem_nil⟩

/-- All the alerts are the tenant's, and the tenant has no name, as the new incident has none. -/
theorem isolated_of_unlinked {alerts : List Alert} {graph : CausalityGraph}
    (hnone : firstLinked alerts = none) (hlen : 2 ≤ alerts.length)
    (hmem : ∀ a ∈ alerts, a ∈ s.alerts.docs) (hown : ∀ a ∈ alerts, isOf [] a = true) :
    Isolated [] s
      (upsertGraph (svc.autoAggregateIncident call s alerts).1 graph, .ok (some graph))
      (upsertGraph (svc.autoAggregateIncident call (s.ofTenant []) alerts).1 graph,
        .ok (some graph)) := by
  rw [svc.autoAggregateIncident_of_unlinked hnone hlen,
    svc.autoAggregateIncident_of_unlinked hnone hlen]
  refine ⟨rfl, ?_, rfl, rfl, rfl, ?_, _, rfl, ?_⟩
  · rw [upsertGraph, upsertGraph, filter_docs_linkAll _ _ (isOf_setAll _ _ _),
      AlertDocs.docs_linkAll]
    rfl
  · rw [upsertGraph, filter_docs_linkAll _ _ fun a => by rw [isOf_setAll]]
    -- the keys that are patched are those of the tenant's alerts
    refine (List.map_congr_left fun a ha => ?_).trans (List.map_id _)
    obtain ⟨hdocs, hother⟩ := List.mem_filter.mp ha
    have hkeys : a.key ∉ alerts.map (·.key) := fun hkey => by
      obtain ⟨b, hb, heq⟩ := List.mem_map.mp hkey
      rw [← s.alerts.eq_of_key (hmem b hb) hdocs heq, hown b hb] at hother
      cases hother
    exact if_neg hkeys
  · intro inc hinc
    rw [List.mem_singleton.mp hinc]
    rfl

/-- A correlation stays within the tenant: there is no graph with all the alerts found and none with the
tenant's, or all are the tenant's and one of them has an incident. -/
def StaysWithin (call : Call) (root : Alert) (found : List Alert) : Prop :=
  (svc.graphOf call.graphID root found = none ∧
    svc.graphOf call.graphID root (found.filter (isOf root.tenantID)) = none) ∨
  ((∀ a ∈ found, isOf root.tenantID a = true) ∧
    (root.tenantID = [] ∨ (firstLinked found).isSome = true))

/-- With another tenant's alert among those found, the tenant's graph has fewer edges. -/
theorem forall_isOf_of_graphs {root : Alert} {found : List Alert} {graph own : CausalityGraph}
    (hnodup : (found.map (·.alertID)).Nodup)
    (hroot : ∀ a ∈ found, a.alertID = root.alertID → a = root)
    (hgraph : svc.graphOf call.graphID root found = some graph)
    (hown : svc.graphOf call.graphID root (found.filter (isOf root.tenantID)) = some own)
    (hcount : graph.edgeCount = own.edgeCount) : ∀ a ∈ found, isOf root.tenantID a = true := by
  by_contra! hother
  obtain ⟨a, ha, hnot⟩ := hother
  have hbuild {as : List Alert} {g : CausalityGraph}
      (hg : svc.graphOf call.graphID root as = some g) : buildDAG svc.ops call.graphID root as = g := by
    rw [graphOf] at hg
    split_ifs at hg
    dsimp only at hg
    split_ifs at hg
    exact Option.some.inj hg
  have hlt := edgeCount_filter_lt svc.ops root call.graphID hnodup ha (Bool.eq_false_iff.mpr hnot)
    (decide_eq_true fun heq => hnot (by rw [hroot a ha heq]; exact decide_eq_true rfl))
  rw [hbuild hgraph, hbuild hown, hcount] at hlt
  exact lt_irrefl _ hlt

/-- **When what an alert sets off is its tenant's.** -/
theorem isolated_iff (call : Call) (s : Store) (triggerAlertID : GoString) :
    svc.TriggersIsolated call s triggerAlertID ↔
      ∀ root, s.alerts.findByAlertID triggerAlertID = some root →
        svc.StaysWithin call root (svc.findCorrelatedAlerts s.alerts root) := by
  refine forall_congr' fun root => forall_congr' fun hroot => ?_
  have hrootOwn := s.alerts.findByAlertID_ofTenant hroot
  have hmem (a : Alert) (ha : a ∈ svc.findCorrelatedAlerts s.alerts root) : a ∈ s.alerts.docs :=
    (svc.mem_findCorrelatedAlerts.mp ha).1
  have hown := svc.findCorrelatedAlerts_ofTenant s.alerts root.tenantID root
  generalize hfound : svc.findCorrelatedAlerts s.alerts root = found at hmem hown
  have hnodup : (found.map (·.alertID)).Nodup := hfound ▸ svc.nodup_findCorrelatedAlerts ..
  cases hgraph : svc.graphOf call.graphID root found with
  | none =>
    rw [svc.triggerCorrelation_of_none call s hroot (hfound ▸ hgraph)]
    cases hgraphOwn : svc.graphOf call.graphID root (found.filter (isOf root.tenantID)) with
    | none =>
      rw [svc.triggerCorrelation_of_none call _ hrootOwn (by rw [Store.ofTenant, hown, hgraphOwn])]
      exact ⟨fun _ => Or.inl ⟨hgraph, hgraphOwn⟩, fun _ => isolated_of_none s⟩
    | some own =>
      rw [svc.triggerCorrelation_of_some call _ hrootOwn hown hgraphOwn rfl]
      refine ⟨fun h => absurd (Except.ok.inj h.outcome) (by simp), ?_⟩
      rintro (⟨-, hnone⟩ | ⟨hall, -⟩)
      · cases hnone.symm.trans hgraphOwn
      · rw [List.filter_eq_self.mpr hall, hgraph] at hgraphOwn
        cases hgraphOwn
  | some graph =>
    rw [svc.triggerCorrelation_of_some call s hroot hfound hgraph rfl]
    constructor
    · intro h
      have hall : ∀ a ∈ found, isOf root.tenantID a = true := by
        cases hgraphOwn : svc.graphOf call.graphID root (found.filter (isOf root.tenantID)) with
        | none =>
          rw [svc.triggerCorrelation_of_none call _ hrootOwn
            (by rw [Store.ofTenant, hown, hgraphOwn])] at h
          exact absurd (Except.ok.inj h.outcome) (by simp)
        | some own =>
          rw [svc.triggerCorrelation_of_some call _ hrootOwn hown hgraphOwn rfl] at h
          have hgraphs := Option.some.inj (Except.ok.inj h.outcome)
          have hcount := congrArg CausalityGraph.edgeCount hgraphs
          have hrootMem := (s.alerts.findByAlertID_eq_some.mp hroot).1
          exact svc.forall_isOf_of_graphs hnodup
            (fun a ha heq => s.alerts.eq_of_alertID (hmem a ha) hrootMem heq) hgraph hgraphOwn
            hcount
      refine Or.inr ⟨hall, ?_⟩
      cases hlinked : firstLinked found with
      | some ref => exact Or.inr rfl
      | none =>
        obtain ⟨new, hnew, htenant⟩ := h.created
        rw [svc.autoAggregateIncident_of_unlinked hlinked (svc.two_le_of_graphOf hgraph)] at hnew
        have hone := List.append_cancel_left hnew
        exact Or.inl (htenant _ (hone ▸ List.mem_singleton_self _)).symm
    · rintro (⟨hnone, -⟩ | ⟨hall, hlinks⟩)
      · cases hnone.symm.trans hgraph
      rw [List.filter_eq_self.mpr hall] at hown
      rw [svc.triggerCorrelation_of_some call _ hrootOwn hown hgraph
        (svc.snd_autoAggregateIncident call _ s found)]
      cases hlinked : firstLinked found with
      | some ref => exact svc.isolated_of_linked hlinked
      | none =>
        rw [hlinked] at hlinks
        have hname := hlinks.resolve_right Bool.false_ne_true
        rw [hname] at hall ⊢
        exact svc.isolated_of_unlinked hlinked (svc.two_le_of_graphOf hgraph) hmem hall

variable {svc} in
/-- Two stores with the same alerts of a tenant: what the tenant's alert sets off is the same. -/
theorem TriggersIsolated.two_runs {s' : Store} {triggerAlertID : GoString} {root : Alert}
    (h : svc.TriggersIsolated call s triggerAlertID)
    (h' : svc.TriggersIsolated call s' triggerAlertID)
    (hroot : s.alerts.findByAlertID triggerAlertID = some root)
    (hroot' : s'.alerts.findByAlertID triggerAlertID = some root)
    (hsame : s.ofTenant root.tenantID = s'.ofTenant root.tenantID) :
    (svc.triggerCorrelation call s triggerAlertID).2 =
        (svc.triggerCorrelation call s' triggerAlertID).2 ∧
      (svc.triggerCorrelation call s triggerAlertID).1.alerts.docs.filter (isOf root.tenantID) =
        (svc.triggerCorrelation call s' triggerAlertID).1.alerts.docs.filter
          (isOf root.tenantID) ∧
      (svc.triggerCorrelation call s triggerAlertID).1.incidents.docs =
        (svc.triggerCorrelation call s' triggerAlertID).1.incidents.docs := by
  have hall := h root hroot
  have hall' := h' root hroot'
  rw [← hsame] at hall'
  exact ⟨hall.outcome.trans hall'.outcome.symm, hall.alerts.trans hall'.alerts.symm,
    hall.incidents.trans hall'.incidents.symm⟩

end CausalityService

/-! ### Two tenants' alerts of one asset -/

/-- The second alert is another tenant's. -/
def foreignStore : Store where
  alerts := {
    docs := [sampleAlert "1" "ALT-1" "t1", sampleAlert "2" "ALT-2" "t2"]
    nodup_keys := by decide +kernel
    nodup_ids := by decide +kernel }
  incidents := ⟨[], List.nodup_nil, IncidentDocs.number_keys_nil⟩

/-- The other tenant's alert gets an incident. -/
theorem not_triggersIsolated : ¬∀ (svc : CausalityService) (call : Call) (s : Store)
    (triggerAlertID : GoString), svc.TriggersIsolated call s triggerAlertID := by
  intro h
  have hothers := (h sampleService sampleCall foreignStore (str "ALT-1")
    (sampleAlert "1" "ALT-1" "t1") (by decide +kernel)).others
  exact absurd hothers (by decide +kernel)

end Incidents

end Xsiam
