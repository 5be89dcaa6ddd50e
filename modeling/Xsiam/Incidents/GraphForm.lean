import Mathlib.Data.List.Nodup
import Xsiam.Incidents.Causality

/-!
# The form of a graph

What `buildDAG` of `internal/domain/incident/causality_service.go` makes is a list of nodes and a list
of edges. The IDs of the nodes are all different, since each one is looked up in `seen` before it is
used, and they stay so where the list is cut at its five hundredth node
(`Xsiam.Incidents.Dag.Sound`). The edges are another matter: the IDs that `addAlert` returns are not
put into them, so an edge leads from no node to no node. The graph is one only where it has no edges
at all (`Xsiam.Incidents.wellFormed_iff`), that is, where there is one alert and it is on no asset.
-/

namespace Xsiam

namespace Incidents

open Go

/-! ### Graphs -/

/-- The IDs of the nodes. -/
def nodeIDs (nodes : List CausalityNode) : List GoString := nodes.map (·.nodeID)

/-- An edge leads from the alert that the graph is for to another one. -/
def JoinsAlerts (root : Alert) (alerts : List Alert) (e : CausalityEdge) : Prop :=
  ∃ a ∈ alerts, a.alertID ≠ root.alertID ∧ e.fromDoc = alertNode root ∧ e.toDoc = alertNode a

/-- An edge leads from an alert to its asset. -/
def JoinsAsset (root : Alert) (alerts : List Alert) (e : CausalityEdge) : Prop :=
  ∃ a ∈ root :: alerts, ∃ assetID ∈ a.assetID,
    e.fromDoc = alertNode a ∧ e.toDoc = assetNode assetID

/-- A graph for an alert and the alerts around it is well formed. An edge of a node that was cut off
is one whose endpoints are not both there. -/
structure WellFormed (root : Alert) (alerts : List Alert) (g : CausalityGraph) : Prop where
  endpoints : ∀ e ∈ g.edges, e.fromDoc ∈ nodeIDs g.nodes ∧ e.toDoc ∈ nodeIDs g.nodes
  joins : ∀ e ∈ g.edges, JoinsAlerts root alerts e ∨ JoinsAsset root alerts e
  nodup : (nodeIDs g.nodes).Nodup
  nodeCount_eq : g.nodeCount = g.nodes.length
  edgeCount_eq : g.edgeCount = g.edges.length

/-! ### What the loop keeps -/

theorem alertNode_ne_nil (a : Alert) : alertNode a ≠ [] :=
  List.append_ne_nil_of_left_ne_nil (by decide) _

theorem assetNode_ne_nil (assetID : GoString) : assetNode assetID ≠ [] :=
  List.append_ne_nil_of_left_ne_nil (by decide) _

namespace Dag

/-- What is true of the nodes and the edges that `buildDAG` has made so far. -/
structure Sound (g : Dag) : Prop where
  nodup : (nodeIDs g.nodes).Nodup
  mem_seen : ∀ n ∈ g.nodes, n.nodeID ∈ g.seen
  ne_nil : ∀ n ∈ g.nodes, n.nodeID ≠ []
  fromDoc_eq : ∀ e ∈ g.edges, e.fromDoc = []

theorem sound_empty : Sound {} where
  nodup := List.nodup_nil
  mem_seen _ h := absurd h List.not_mem_nil
  ne_nil _ h := absurd h List.not_mem_nil
  fromDoc_eq _ h := absurd h List.not_mem_nil

theorem edges_addAsset (g : Dag) (a : Alert) (assetID : GoString) :
    (g.addAsset a assetID).edges = g.edges := by
  rw [Dag.addAsset]
  split_ifs
  · rfl
  · rfl

namespace Sound

variable {g : Dag}

/-- A node whose ID has not been seen. -/
theorem addNode (h : g.Sound) {n : CausalityNode} (hseen : n.nodeID ∉ g.seen)
    (hne : n.nodeID ≠ []) :
    Sound { g with nodes := g.nodes ++ [n], seen := n.nodeID :: g.seen } where
  nodup := by
    rw [nodeIDs, List.map_append, List.map_cons, List.map_nil]
    refine h.nodup.append (List.nodup_singleton _) ?_
    intro id hid hnew
    obtain ⟨m, hm, rfl⟩ := List.mem_map.mp hid
    rw [List.mem_singleton] at hnew
    exact hseen (hnew ▸ h.mem_seen m hm)
  mem_seen m hm := by
    rcases List.mem_append.mp hm with hm | hm
    · exact List.mem_cons_of_mem _ (h.mem_seen m hm)
    · rw [List.mem_singleton.mp hm]
      exact List.mem_cons_self
  ne_nil m hm := by
    rcases List.mem_append.mp hm with hm | hm
    · exact h.ne_nil m hm
    · rwa [List.mem_singleton.mp hm]
  fromDoc_eq := h.fromDoc_eq

/-- An edge as the code makes it. -/
theorem addEdge (h : g.Sound) (weight : Float64) :
    Sound { g with edges := g.edges ++ [{ weight }] } where
  nodup := h.nodup
  mem_seen := h.mem_seen
  ne_nil := h.ne_nil
  fromDoc_eq e he := by
    rcases List.mem_append.mp he with he | he
    · exact h.fromDoc_eq e he
    · rw [List.mem_singleton.mp he]

theorem addAsset (h : g.Sound) (a : Alert) (assetID : GoString) : (g.addAsset a assetID).Sound := by
  rw [Dag.addAsset]
  split_ifs with hseen
  · exact h
  · exact h.addNode (n := { nodeID := assetNode assetID, type := .asset, label := a.assetName })
      hseen (assetNode_ne_nil assetID)

theorem addAlert (h : g.Sound) (a : Alert) (isRoot : Bool) : (g.addAlert a isRoot).Sound := by
  rw [Dag.addAlert]
  split_ifs with hseen
  · exact h
  have halert := fun assetID : Option GoString => h.addNode (n := {
    nodeID := alertNode a
    type := .alert
    label := a.name
    alertID := some a.alertID
    assetID
    isRootCause := isRoot
    severity := some a.severity }) hseen (alertNode_ne_nil a)
  cases a.assetID with
  | none => exact halert none
  | some assetID =>
    have hasset := ((halert (some assetID)).addAsset a assetID).addEdge .c1
    rw [edges_addAsset] at hasset
    exact hasset

theorem buildLoop {ops : FloatOps} {root : Alert} {as : List Alert} :
    ∀ {g : Dag}, g.Sound → (buildLoop ops root g as).Sound := by
  induction as with
  | nil => exact fun h => h
  | cons a as ih =>
    intro g h
    rw [Incidents.buildLoop]
    split_ifs
    · exact ih h
    · exact ih ((h.addAlert a false).addEdge _)

end Sound

/-! ### Where there is an edge -/

/-- An alert brings an edge for its asset, when it is added for the first time. -/
theorem edges_addAlert (g : Dag) (a : Alert) (isRoot : Bool) :
    (g.addAlert a isRoot).edges = g.edges ++
      if alertNode a ∉ g.seen ∧ a.assetID.isSome then [{ weight := .c1 }] else [] := by
  rw [Dag.addAlert]
  by_cases hseen : alertNode a ∈ g.seen
  · simp [hseen]
  · cases a.assetID with
    | none => simp [hseen]
    | some assetID => simp [hseen]

end Dag

/-- The loop brings an edge for each alert that is another one. -/
theorem edges_buildLoop_eq_nil_iff {ops : FloatOps} {root : Alert} {as : List Alert} :
    ∀ {g : Dag}, (buildLoop ops root g as).edges = [] ↔
      g.edges = [] ∧ ∀ a ∈ as, a.alertID = root.alertID := by
  induction as with
  | nil => simp [buildLoop]
  | cons a as ih =>
    intro g
    rw [buildLoop, List.forall_mem_cons]
    split_ifs with hroot
    · rw [ih]
      exact and_congr_right fun _ => (and_iff_right hroot).symm
    · rw [ih]
      exact iff_of_false (fun h => List.append_ne_nil_of_right_ne_nil _ (List.cons_ne_nil _ _) h.1)
        (fun h => hroot h.2.1)

variable (ops : FloatOps) (graphID : GoString) (root : Alert) (alerts : List Alert)

/-- **Where a graph has no edges**: the alert is on no asset, and there is no other alert. -/
theorem edges_buildDAG_eq_nil_iff : (buildDAG ops graphID root alerts).edges = [] ↔
    root.assetID = none ∧ ∀ a ∈ alerts, a.alertID = root.alertID := by
  rw [buildDAG, edges_buildLoop_eq_nil_iff, Dag.edges_addAlert]
  refine and_congr_left fun _ => ?_
  cases root.assetID with
  | none => simp
  | some assetID => simp

theorem sound_buildDAG : (nodeIDs (buildDAG ops graphID root alerts).nodes).Nodup ∧
    [] ∉ nodeIDs (buildDAG ops graphID root alerts).nodes ∧
    ∀ e ∈ (buildDAG ops graphID root alerts).edges, e.fromDoc = [] := by
  have hsound := @Dag.Sound.buildLoop ops root alerts _ (Dag.sound_empty.addAlert root true)
  refine ⟨?_, ?_, hsound.fromDoc_eq⟩
  · exact hsound.nodup.sublist ((List.take_sublist _ _).map _)
  · intro hnil
    obtain ⟨n, hn, hid⟩ := List.mem_map.mp hnil
    exact hsound.ne_nil n (List.mem_of_mem_take hn) hid

/-- **A graph is well formed exactly if it has no edges**: its alert is on no asset, and there is no
other alert. -/
theorem wellFormed_iff : WellFormed root alerts (buildDAG ops graphID root alerts) ↔
    root.assetID = none ∧ ∀ a ∈ alerts, a.alertID = root.alertID := by
  rw [← edges_buildDAG_eq_nil_iff ops graphID]
  obtain ⟨hnodup, hnil, hfrom⟩ := sound_buildDAG ops graphID root alerts
  constructor
  · intro h
    rw [List.eq_nil_iff_forall_not_mem]
    intro e he
    -- no node has the ID that the edge is said to come from
    have hmem := (h.endpoints e he).1
    rw [hfrom e he] at hmem
    exact hnil hmem
  · intro h
    have hnone : ∀ e, e ∉ (buildDAG ops graphID root alerts).edges :=
      List.eq_nil_iff_forall_not_mem.mp h
    exact ⟨fun e he => absurd he (hnone e), fun e he => absurd he (hnone e), hnodup, rfl, rfl⟩

/-- **The graph of two alerts on an asset is not well formed.** -/
theorem not_wellFormed : ¬WellFormed (sampleAlert "1" "ALT-1" "t1") [sampleAlert "2" "ALT-2" "t1"]
    (buildDAG sampleOps (str "GRP-1") (sampleAlert "1" "ALT-1" "t1")
      [sampleAlert "2" "ALT-2" "t1"]) := by
  intro h
  have hedge := h.endpoints { weight := .c1 } (by decide +kernel)
  revert hedge
  decide +kernel

end Incidents

end Xsiam
