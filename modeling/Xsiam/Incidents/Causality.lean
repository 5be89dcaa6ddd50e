import Xsiam.Go.Float
import Xsiam.Incidents.Alerts

/-!
# Correlating alerts

`CausalityService` of `internal/domain/incident/causality_service.go`. An alert that triggers a
correlation is joined with the alerts of a day that are on its asset, have one of its indicators
or are of its user. From two of them on there is a graph, and where the graph is convincing the
alerts get an incident: the one the first linked alert refers to, or a new one.

A new incident has an ID that the program makes and a key that the database makes. The alerts
refer to it by its ID.
-/

namespace Xsiam

namespace Incidents

open Go Repository

/-! ### The graph -/

/-- The types of the nodes that `buildDAG` makes. -/
inductive CausalityNodeType where
  | alert
  | asset
deriving DecidableEq

/-- The type of the edges that `buildDAG` makes. -/
inductive CausalityEdgeType where
  | triggered
deriving DecidableEq

/-- `model.CausalityNode`, without its date. -/
structure CausalityNode where
  nodeID : GoString
  incidentID : GoString := []
  type : CausalityNodeType
  label : GoString
  alertID : Option GoString := none
  assetID : Option GoString := none
  isRootCause : Bool := false
  severity : Option GoString := none
deriving DecidableEq

/-- `model.CausalityEdge`, without its timestamp, which `buildDAG` leaves out. -/
structure CausalityEdge where
  /-- `From` -/
  fromDoc : GoString := []
  /-- `To` -/
  toDoc : GoString := []
  incidentID : GoString := []
  type : CausalityEdgeType := .triggered
  weight : Float64
deriving DecidableEq

/-- `model.CausalityGraph`, without its dates. -/
structure CausalityGraph where
  graphID : GoString
  incidentID : GoString := []
  timeWindowH : ℤ
  confidence : Float64
  nodes : List CausalityNode
  edges : List CausalityEdge
  nodeCount : ℤ
  edgeCount : ℤ
deriving DecidableEq

/-- `DefaultTimeWindowH` -/
def defaultTimeWindowH : ℤ := 24

/-- `DefaultConfidenceMin` -/
def defaultConfidenceMin : Float64 := .c0_7

/-- `MaxGraphNodes` -/
def maxGraphNodes : ℕ := 500

/-- `AutoIncidentMinAlerts` -/
def autoIncidentMinAlerts : ℕ := 2

/-- What `buildDAG` has made so far: nodes, edges, and the IDs of the nodes. -/
structure Dag where
  nodes : List CausalityNode := []
  edges : List CausalityEdge := []
  seen : List GoString := []

/-- The ID of an alert's node. -/
def alertNode (a : Alert) : GoString := str "alert:" ++ a.alertID

/-- The ID of an asset's node. -/
def assetNode (assetID : GoString) : GoString := str "asset:" ++ assetID

/-- A node for an asset, if there is none. -/
def Dag.addAsset (g : Dag) (a : Alert) (assetID : GoString) : Dag :=
  if assetNode assetID ∈ g.seen then g
  else { g with
    nodes := g.nodes ++ [{ nodeID := assetNode assetID, type := .asset, label := a.assetName }]
    seen := assetNode assetID :: g.seen }

/-- `addAlert` -/
def Dag.addAlert (g : Dag) (a : Alert) (isRoot : Bool) : Dag :=
  if alertNode a ∈ g.seen then g
  else
    let g' : Dag := { g with
      nodes := g.nodes ++ [{
        nodeID := alertNode a
        type := .alert
        label := a.name
        alertID := some a.alertID
        assetID := a.assetID
        isRootCause := isRoot
        severity := some a.severity }]
      seen := alertNode a :: g.seen }
    match a.assetID with
    | none => g'
    | some assetID =>
      { g'.addAsset a assetID with edges := g.edges ++ [{ weight := .c1 }] }

section Weights

variable (ops : FloatOps)

/-- `calcEdgeWeight` -/
def calcEdgeWeight (a b : Alert) : Float64 :=
  let onAsset : Float64 :=
    if a.assetID.isSome ∧ a.assetID = b.assetID then ops.add ⟨0⟩ .c0_4 else ⟨0⟩
  let tactics := (a.mitreTactics.filter fun t => b.mitreTactics.contains t).foldl
    (fun w _ => ops.add w .c0_3) onAsset
  let w := (a.iocs.filter fun i => b.iocs.any fun j => i.value = j.value).foldl
    (fun w _ => ops.add w .c0_3) tactics
  if Float64.lt .c1 w then .c1 else w

/-- `calcGraphConfidence` -/
def calcGraphConfidence (nodes : List CausalityNode) (edges : List CausalityEdge) : Float64 :=
  if edges = [] then ⟨0⟩
  else
    let total := edges.foldl (fun t e => ops.add t e.weight) ⟨0⟩
    let avg := ops.div total (ops.ofInt edges.length)
    let maxPossible := max 1 (nodes.length * (nodes.length - 1) / 2)
    let density := ops.div (ops.ofInt edges.length) (ops.ofInt maxPossible)
    let result := ops.add (ops.mul avg .c0_7) (ops.mul density .c0_3)
    if Float64.lt .c1 result then .c1 else result

/-- The loop of `buildDAG`. -/
def buildLoop (root : Alert) : Dag → List Alert → Dag
  | g, [] => g
  | g, a :: as =>
    if a.alertID = root.alertID then buildLoop root g as
    else
      let g' := g.addAlert a false
      buildLoop root { g' with edges := g'.edges ++ [{ weight := calcEdgeWeight ops root a }] } as

/-- `buildDAG` -/
def buildDAG (graphID : GoString) (root : Alert) (alerts : List Alert) : CausalityGraph :=
  let g := buildLoop ops root (Dag.addAlert {} root true) alerts
  let nodes := g.nodes.take maxGraphNodes
  { graphID
    timeWindowH := defaultTimeWindowH
    confidence := calcGraphConfidence ops nodes g.edges
    nodes
    edges := g.edges
    nodeCount := nodes.length
    edgeCount := g.edges.length }

end Weights

/-! ### The store -/

/-- The collection of the incidents. The keys are made by the database, which makes numbers. -/
structure IncidentDocs where
  docs : List Incident
  nodup_keys : (docs.map (·.key)).Nodup
  number_keys : ∀ inc ∈ docs, (digits inc.key).isSome = true

/-- Without documents there are no keys to be numbers. -/
theorem IncidentDocs.number_keys_nil :
    ∀ inc ∈ ([] : List Incident), (digits inc.key).isSome = true :=
  fun _ h => absurd h List.not_mem_nil

/-- The collections that correlation works on. -/
structure Store where
  alerts : AlertDocs
  incidents : IncidentDocs
  nodes : List CausalityNode := []
  edges : List CausalityEdge := []

/-- What is around the service: the arithmetic, how the database compares times, and the keys it
makes. -/
structure CausalityService where
  ops : FloatOps
  /-- `doc.triggered_at >= @since` -/
  notBefore : Time → Time → Bool
  /-- The key of a new document, next to those there are. -/
  newKey : List GoString → GoString
  fresh : ∀ keys, newKey keys ∉ keys
  number : ∀ keys, (digits (newKey keys)).isSome = true

/-- What a call finds out from the clock and from chance. -/
structure Call where
  graphID : GoString
  now : Time
  /-- The milliseconds of the clock. -/
  millis : ℕ
  /-- `rand.Intn(1000000)` -/
  rand : ℕ

/-- `NewIncidentID`: the number has six digits, with zeros in front. -/
def Call.newIncidentID (call : Call) : GoString :=
  str "INC-" ++ str (toString call.millis) ++ str "-" ++
    str (String.ofList (List.replicate (6 - (toString call.rand).length) '0')) ++
      str (toString call.rand)

namespace CausalityService

variable (svc : CausalityService)

/-- `Create` of the incident repository. -/
def create (incidents : IncidentDocs) (inc : Incident) (now : Time) : IncidentDocs where
  docs := incidents.docs ++
    [{ inc with key := svc.newKey (incidents.docs.map (·.key)), createdAt := now }]
  nodup_keys := by
    rw [List.map_append, List.nodup_append]
    refine ⟨incidents.nodup_keys, List.nodup_singleton _, ?_⟩
    rintro key hkey _ hnew rfl
    rw [List.mem_singleton.mp hnew] at hkey
    exact svc.fresh _ hkey
  number_keys := by
    intro i hi
    rcases List.mem_append.mp hi with hi | hi
    · exact incidents.number_keys i hi
    · rw [List.mem_singleton.mp hi]
      exact svc.number _

/-! ### The alerts that are correlated -/

/-- `dedup` -/
def dedup : List GoString → List Alert → List Alert
  | _, [] => []
  | seen, a :: as =>
    if a.alertID ∈ seen then dedup seen as else a :: dedup (a.alertID :: seen) as

/-- The time from which on alerts are correlated. -/
def since (root : Alert) : Time := root.triggeredAt - defaultTimeWindowH * hour

/-- `findCorrelatedAlerts` -/
def findCorrelatedAlerts (alerts : AlertDocs) (root : Alert) : List Alert :=
  let byAsset := alerts.findByAssetSince svc.notBefore root.assetID (since root)
  let byIoc := alerts.findByIocValues svc.notBefore (root.iocs.map (·.value)) (since root)
  let byUser := alerts.findByUser svc.notBefore root.userName (since root)
  dedup [] (byAsset ++ byIoc ++ byUser)

/-- The graph of the alerts that were found, where there is one that is stored. -/
def graphOf (graphID : GoString) (root : Alert) (alerts : List Alert) : Option CausalityGraph :=
  if alerts.length < autoIncidentMinAlerts then none
  else
    let graph := buildDAG svc.ops graphID root alerts
    if Float64.lt graph.confidence defaultConfidenceMin then none else some graph

/-! ### The incident -/

/-- The incident that the first linked alert refers to. -/
def firstLinked (alerts : List Alert) : Option GoString := alerts.findSome? (·.incidentID)

/-- `buildAutoIncident`. Severities are compared as texts. -/
def buildAutoIncident (call : Call) (alerts : List Alert) : Incident where
  key := []
  incidentID := call.newIncidentID
  name := str "Auto-correlated Incident"
  severity := alerts.foldl (fun sev a => if sev < a.severity then a.severity else sev) (str "low")
  status := .new
  alertIDs := alerts.map (·.alertID)
  alertCount := alerts.length
  firstSeen := call.now

/-- `autoAggregateIncident`, and the incident the graph is for. -/
def autoAggregateIncident (call : Call) (s : Store) (alerts : List Alert) : Store × GoString :=
  match firstLinked alerts with
  | some ref => (s, ref)
  | none =>
    if alerts.length < autoIncidentMinAlerts then (s, [])
    else
      let inc := buildAutoIncident call alerts
      ({ s with
        alerts := AlertDocs.linkAll inc.incidentID (alerts.map (·.key)) s.alerts
        incidents := svc.create s.incidents inc call.now }, inc.incidentID)

/-- The database takes an edge, which has to lead from a document to one. -/
def takesEdge (e : CausalityEdge) : Bool := e.fromDoc ≠ [] && e.toDoc ≠ []

/-- `Upsert` of the graph repository, where what the database does not take is passed over. -/
def upsertGraph (s : Store) (g : CausalityGraph) : Store :=
  { s with nodes := s.nodes ++ g.nodes, edges := s.edges ++ g.edges.filter takesEdge }

/-- `TriggerCorrelation`. Where it stores a graph, the graph comes back too. -/
def triggerCorrelation (call : Call) (s : Store) (triggerAlertID : GoString) :
    Store × Except GoString (Option CausalityGraph) :=
  match s.alerts.findByAlertID triggerAlertID with
  | none => (s, .error (str "alert " ++ triggerAlertID ++ str " not found"))
  | some root =>
    let candidates := svc.findCorrelatedAlerts s.alerts root
    match svc.graphOf call.graphID root candidates with
    | none => (s, .ok none)
    | some graph =>
      let (s', incidentID) := svc.autoAggregateIncident call s candidates
      let graph' := { graph with incidentID }
      (upsertGraph s' graph', .ok (some graph'))

/-! ### Which alerts are correlated -/

theorem mem_of_mem_dedup {a : Alert} {as : List Alert} :
    ∀ {seen : List GoString}, a ∈ dedup seen as → a ∈ as := by
  induction as with
  | nil => intro seen h; exact h
  | cons b as ih =>
    intro seen h
    rw [dedup] at h
    split at h
    · exact List.mem_cons_of_mem _ (ih h)
    · rcases List.mem_cons.mp h with rfl | h
      · exact List.mem_cons_self
      · exact List.mem_cons_of_mem _ (ih h)

/-- An alert is kept, or another with its ID is. -/
theorem alertID_mem_dedup {a : Alert} {as : List Alert} (h : a ∈ as) :
    ∀ seen : List GoString, a.alertID ∈ seen ∨ a.alertID ∈ (dedup seen as).map (·.alertID) := by
  induction as with
  | nil => exact absurd h List.not_mem_nil
  | cons b as ih =>
    intro seen
    rw [dedup]
    rcases List.mem_cons.mp h with rfl | h
    · split
      · exact Or.inl ‹_›
      · exact Or.inr List.mem_cons_self
    · split
      · exact ih h seen
      · rcases ih h (b.alertID :: seen) with hseen | hkept
        · rcases List.mem_cons.mp hseen with heq | hseen
          · exact Or.inr (List.mem_cons.mpr (Or.inl heq))
          · exact Or.inl hseen
        · exact Or.inr (List.mem_cons_of_mem _ hkept)

/-- No ID is kept twice, and none that has been seen. -/
theorem nodup_dedup (as : List Alert) : ∀ seen : List GoString,
    ((dedup seen as).map (·.alertID)).Nodup ∧ ∀ a ∈ dedup seen as, a.alertID ∉ seen := by
  induction as with
  | nil => exact fun seen => ⟨List.nodup_nil, fun a ha => absurd ha List.not_mem_nil⟩
  | cons b as ih =>
    intro seen
    rw [dedup]
    split
    · exact ih seen
    · obtain ⟨hnodup, hseen⟩ := ih (b.alertID :: seen)
      refine ⟨List.nodup_cons.mpr ⟨fun hmem => ?_, hnodup⟩, fun a ha => ?_⟩
      · obtain ⟨a, ha, heq⟩ := List.mem_map.mp hmem
        exact hseen a ha (heq ▸ List.mem_cons_self)
      · rcases List.mem_cons.mp ha with rfl | ha
        · assumption
        · exact fun hmem => hseen a ha (List.mem_cons_of_mem _ hmem)

/-- An alert that is correlated with another. -/
def correlates (root a : Alert) : Bool :=
  (AlertDocs.onAsset root.assetID a || AlertDocs.withIoc (root.iocs.map (·.value)) a ||
    AlertDocs.ofUser root.userName a) && svc.notBefore a.triggeredAt (since root)

/-- **The correlated alerts are those that are correlated**, each once. -/
theorem mem_findCorrelatedAlerts {alerts : AlertDocs} {root a : Alert} :
    a ∈ svc.findCorrelatedAlerts alerts root ↔ a ∈ alerts.docs ∧ svc.correlates root a = true := by
  have hmem (b : Alert) : b ∈ alerts.findByAssetSince svc.notBefore root.assetID (since root) ++
        alerts.findByIocValues svc.notBefore (root.iocs.map (·.value)) (since root) ++
        alerts.findByUser svc.notBefore root.userName (since root) ↔
      b ∈ alerts.docs ∧ svc.correlates root b = true := by
    simp only [AlertDocs.findByAssetSince, AlertDocs.findByIocValues, AlertDocs.findByUser,
      AlertDocs.findSince, correlates, List.mem_append, List.mem_filter, Bool.and_eq_true,
      Bool.or_eq_true]
    tauto
  constructor
  · exact fun h => (hmem a).mp (mem_of_mem_dedup h)
  · intro h
    obtain ⟨b, hb, heq⟩ := List.mem_map.mp
      ((alertID_mem_dedup ((hmem a).mpr h) []).resolve_left List.not_mem_nil)
    rwa [← alerts.eq_of_alertID ((hmem b).mp (mem_of_mem_dedup hb)).1 h.1 heq]

theorem nodup_findCorrelatedAlerts (alerts : AlertDocs) (root : Alert) :
    ((svc.findCorrelatedAlerts alerts root).map (·.alertID)).Nodup := (nodup_dedup _ _).1

/-- Where there is a graph there are two alerts. -/
theorem two_le_of_graphOf {graphID : GoString} {root : Alert} {alerts : List Alert}
    {graph : CausalityGraph} (h : svc.graphOf graphID root alerts = some graph) :
    2 ≤ alerts.length := by
  rw [graphOf] at h
  split at h
  · cases h
  · exact Nat.not_lt.mp ‹_›

/-! ### What a correlation does -/

theorem autoAggregateIncident_of_linked {call : Call} {s : Store} {alerts : List Alert}
    {ref : GoString} (h : firstLinked alerts = some ref) :
    svc.autoAggregateIncident call s alerts = (s, ref) := by
  simp only [autoAggregateIncident, h]

theorem autoAggregateIncident_of_unlinked {call : Call} {s : Store} {alerts : List Alert}
    (h : firstLinked alerts = none) (hlen : 2 ≤ alerts.length) :
    svc.autoAggregateIncident call s alerts =
      ({ s with
        alerts := AlertDocs.linkAll call.newIncidentID (alerts.map (·.key)) s.alerts
        incidents := svc.create s.incidents (buildAutoIncident call alerts) call.now },
        call.newIncidentID) := by
  simp only [autoAggregateIncident, h]
  exact if_neg (Nat.not_lt.mpr hlen)

/-- **When a graph is stored, and what else is.** -/
theorem triggerCorrelation_eq_some {call : Call} {s s' : Store} {triggerAlertID : GoString}
    {graph : CausalityGraph} :
    svc.triggerCorrelation call s triggerAlertID = (s', .ok (some graph)) ↔
      ∃ root found, s.alerts.findByAlertID triggerAlertID = some root ∧
        svc.graphOf call.graphID root (svc.findCorrelatedAlerts s.alerts root) = some found ∧
        graph = { found with incidentID :=
          (svc.autoAggregateIncident call s (svc.findCorrelatedAlerts s.alerts root)).2 } ∧
        s' = upsertGraph
          (svc.autoAggregateIncident call s (svc.findCorrelatedAlerts s.alerts root)).1 graph := by
  rw [triggerCorrelation]
  constructor
  · intro h
    split at h
    · cases (Prod.mk.inj h).2
    · next root hroot =>
      dsimp only at h
      split at h
      · cases (Prod.mk.inj h).2
      · next found hfound =>
        obtain ⟨rfl, hgraph⟩ := Prod.mk.inj h
        obtain rfl := Option.some.inj (Except.ok.inj hgraph)
        exact ⟨root, found, hroot, hfound, rfl, rfl⟩
  · rintro ⟨root, found, hroot, hfound, rfl, rfl⟩
    simp only [hroot, hfound]

end CausalityService

/-! ### An ID is no key -/

/-- A text that does not start with a digit is no number. -/
theorem digits_cons {b : UInt8} (h : ¬(0x30 ≤ b.toNat ∧ b.toNat ≤ 0x39)) (s : GoString) :
    digits (b :: s) = none := by
  have hnone (s : GoString) : s.foldl (fun acc b => acc.bind fun n =>
      if 0x30 ≤ b.toNat ∧ b.toNat ≤ 0x39 then some (10 * n + (b.toNat - 0x30)) else none)
      none = none := by
    induction s with
    | nil => rfl
    | cons b s ih => exact ih
  rw [digits, if_neg (List.cons_ne_nil b s), List.foldl_cons]
  simp [h, hnone]

/-- The ID of a new incident is not the key of any. -/
theorem digits_newIncidentID (call : Call) : digits call.newIncidentID = none :=
  digits_cons (b := 0x49) (by decide) _

/-! ### Two alerts of one asset -/

/-- The arithmetic of floats, right on the sums and the quotients of the example. -/
def sampleOps : FloatOps where
  add x y :=
    if x = ⟨0⟩ then y
    else if x = .c1 ∧ y = .c1 then .c2
    else if x = .c2 ∧ y = .c1 then .c3
    else if x = .c0_4 ∧ y = .c0_3 then .c0_7 else .c1
  mul _ y := y
  div _ _ := .c1
  min x _ := x
  log10 x := x
  round x := x
  ofInt _ := .c3

/-- A key of ones, longer than the keys there are. -/
def longKey (keys : List GoString) : GoString :=
  List.replicate ((keys.map List.length).sum + 1) 0x31

theorem longKey_fresh (keys : List GoString) : longKey keys ∉ keys := by
  intro hmem
  have hle := List.le_sum_of_mem (List.mem_map_of_mem (f := List.length) hmem)
  rw [longKey, List.length_replicate] at hle
  omega

/-- A row of ones is a number. -/
theorem digits_longKey (keys : List GoString) : (digits (longKey keys)).isSome = true := by
  have hones (n : ℕ) : ∀ acc : ℕ, ((List.replicate n (0x31 : UInt8)).foldl (fun acc b =>
      acc.bind fun n => if 0x30 ≤ b.toNat ∧ b.toNat ≤ 0x39 then some (10 * n + (b.toNat - 0x30))
        else none) (some acc)).isSome = true := by
    induction n with
    | zero => intro acc; rfl
    | succ n ih => intro acc; exact ih _
  rw [longKey, digits, if_neg (by simp)]
  exact hones _ 0

/-- The service, with a database that makes such keys. -/
def sampleService : CausalityService where
  ops := sampleOps
  notBefore t since := since ≤ t
  newKey := longKey
  fresh := longKey_fresh
  number := digits_longKey

/-- An alert of a tenant on the asset, with one tactic and one indicator. -/
def sampleAlert (key alertID tenantID : String) : Alert where
  key := str key
  alertID := str alertID
  tenantID := str tenantID
  severity := str "high"
  assetID := some (str "srv-1")
  mitreTactics := [str "TA0008"]
  iocs := [⟨str "10.0.0.9"⟩]

/-- Two alerts, and no incidents. -/
def sampleStore : Store where
  alerts := {
    docs := [sampleAlert "1" "ALT-1" "t1", sampleAlert "2" "ALT-2" "t1"]
    nodup_keys := by decide +kernel
    nodup_ids := by decide +kernel }
  incidents := ⟨[], List.nodup_nil, IncidentDocs.number_keys_nil⟩

def sampleCall : Call := ⟨str "GRP-1", 0, 1, 7⟩

theorem sample_found : sampleStore.alerts.findByAlertID (str "ALT-1") =
    some (sampleAlert "1" "ALT-1" "t1") := by decide +kernel

/-- The two are correlated, and their graph is convincing. -/
theorem sample_stores : (sampleService.graphOf sampleCall.graphID (sampleAlert "1" "ALT-1" "t1")
    (sampleService.findCorrelatedAlerts sampleStore.alerts
      (sampleAlert "1" "ALT-1" "t1"))).isSome = true := by decide +kernel

end Incidents

end Xsiam
