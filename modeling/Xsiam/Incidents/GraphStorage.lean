import Mathlib.Data.List.Perm.Basic
import Xsiam.Incidents.Causality
import Xsiam.Lib.Run

/-!
# The graph of an incident

`GetGraphByIncident` of `internal/domain/incident/causality_repo.go`, which reads a graph back by
the incident that its nodes and edges are marked with. `buildDAG` marks none of them, and neither
does `autoAggregateIncident`, which marks the graph only; an edge does not even say where it leads,
and the database does not take it.

So a correlation leaves nothing that is found under its incident, and what is found there is what
the collections had of it before (`Xsiam.Incidents.CausalityService.getGraphByIncident_of_reach`).
Only where the alerts refer to an incident with no ID are the nodes found, together with those of
every other graph (`Xsiam.Incidents.CausalityService.survives_iff`).
-/

namespace Xsiam

namespace Incidents

namespace CausalityService

open Go Run

/-! ### What is built is not marked -/

/-- Nodes and edges that are marked with no incident, and edges that lead nowhere. -/
structure Unmarked (nodes : List CausalityNode) (edges : List CausalityEdge) : Prop where
  nodes : ∀ n ∈ nodes, n.incidentID = []
  edges : ∀ e ∈ edges, takesEdge e = false

namespace Unmarked

variable {nodes : List CausalityNode} {edges : List CausalityEdge}

theorem addNode (h : Unmarked nodes edges) {n : CausalityNode} (hn : n.incidentID = []) :
    Unmarked (nodes ++ [n]) edges where
  nodes m hm := by
    rcases List.mem_append.mp hm with hm | hm
    · exact h.nodes m hm
    · rwa [List.mem_singleton.mp hm]
  edges := h.edges

theorem addEdge (h : Unmarked nodes edges) {e : CausalityEdge} (he : takesEdge e = false) :
    Unmarked nodes (edges ++ [e]) where
  nodes := h.nodes
  edges f hf := by
    rcases List.mem_append.mp hf with hf | hf
    · exact h.edges f hf
    · rwa [List.mem_singleton.mp hf]

theorem addAlert {g : Dag} (h : Unmarked g.nodes g.edges) (a : Alert) (isRoot : Bool) :
    Unmarked (g.addAlert a isRoot).nodes (g.addAlert a isRoot).edges := by
  rw [Dag.addAlert]
  split_ifs
  · exact h
  cases a.assetID with
  | none => exact h.addNode rfl
  | some assetID =>
    refine addEdge ?_ rfl
    simp only [Dag.addAsset]
    split_ifs
    · exact h.addNode rfl
    · exact (h.addNode rfl).addNode rfl

theorem buildLoop {ops : FloatOps} {root : Alert} {as : List Alert} :
    ∀ {g : Dag}, Unmarked g.nodes g.edges →
      Unmarked (buildLoop ops root g as).nodes (buildLoop ops root g as).edges := by
  induction as with
  | nil => exact fun h => h
  | cons a as ih =>
    intro g h
    rw [Incidents.buildLoop]
    split_ifs
    · exact ih h
    · exact ih ((h.addAlert a false).addEdge rfl)

end Unmarked

theorem unmarked_buildDAG (ops : FloatOps) (graphID : GoString) (root : Alert)
    (alerts : List Alert) :
    Unmarked (buildDAG ops graphID root alerts).nodes (buildDAG ops graphID root alerts).edges := by
  have hempty : Unmarked ({} : Dag).nodes ({} : Dag).edges :=
    ⟨fun _ h => absurd h List.not_mem_nil, fun _ h => absurd h List.not_mem_nil⟩
  have hloop := @Unmarked.buildLoop ops root alerts _ (hempty.addAlert root true)
  exact ⟨fun n hn => hloop.nodes n (List.mem_of_mem_take hn), hloop.edges⟩

/-! ### What is built is not empty -/

theorem nodes_buildLoop_ne_nil {ops : FloatOps} {root : Alert} {as : List Alert} :
    ∀ {g : Dag}, g.nodes ≠ [] → (buildLoop ops root g as).nodes ≠ [] := by
  induction as with
  | nil => exact fun h => h
  | cons a as ih =>
    intro g h
    rw [buildLoop]
    split_ifs
    · exact ih h
    · refine ih (g := { g.addAlert a false with edges := _ }) ?_
      rw [Dag.addAlert]
      split_ifs
      · exact h
      cases a.assetID with
      | none => simp
      | some assetID =>
        simp only [Dag.addAsset]
        split_ifs
        · simp
        · simp

/-- The node of the alert that triggered the correlation is there. -/
theorem nodes_buildDAG_ne_nil (ops : FloatOps) (graphID : GoString) (root : Alert)
    (alerts : List Alert) : (buildDAG ops graphID root alerts).nodes ≠ [] := by
  have hroot : (Dag.addAlert {} root true).nodes ≠ [] := by
    rw [Dag.addAlert, if_neg List.not_mem_nil]
    cases root.assetID with
    | none => simp
    | some assetID =>
      simp only [Dag.addAsset]
      split_ifs
      · simp
      · simp
  have hloop := @nodes_buildLoop_ne_nil ops root alerts _ hroot
  rw [buildDAG, ne_eq, List.take_eq_nil_iff, not_or]
  exact ⟨by decide, hloop⟩

variable (svc : CausalityService)

/-- A graph without edges is not convincing. -/
theorem edges_ne_nil_of_graphOf {graphID : GoString} {root : Alert} {alerts : List Alert}
    {graph : CausalityGraph} (h : svc.graphOf graphID root alerts = some graph) :
    graph.edges ≠ [] := by
  intro hnone
  rw [graphOf] at h
  dsimp only at h
  split_ifs at h with _ hlow
  obtain rfl := Option.some.inj h
  have hzero : (buildDAG svc.ops graphID root alerts).confidence = ⟨0⟩ := if_pos hnone
  rw [hzero] at hlow
  exact hlow (by decide)

theorem eq_buildDAG_of_graphOf {graphID : GoString} {root : Alert} {alerts : List Alert}
    {graph : CausalityGraph} (h : svc.graphOf graphID root alerts = some graph) :
    graph = buildDAG svc.ops graphID root alerts := by
  rw [graphOf] at h
  dsimp only at h
  split_ifs at h
  exact (Option.some.inj h).symm

/-! ### Runs -/

/-- `GetGraphByIncident` of the repository. -/
def getGraphByIncident (s : Store) (incidentID : GoString) : CausalityGraph :=
  let nodes := s.nodes.filter fun n => n.incidentID = incidentID
  let edges := s.edges.filter fun e => e.incidentID = incidentID
  { graphID := []
    incidentID
    timeWindowH := 0
    confidence := ⟨0⟩
    nodes
    edges
    nodeCount := nodes.length
    edgeCount := edges.length }

/-- What happens: an alert triggers a correlation, or others have written alerts and incidents. -/
inductive Event where
  | trigger (call : Call) (alertID : GoString)
  | others (alerts : AlertDocs) (incidents : IncidentDocs)

/-- One event. -/
def handle (s : Store) : Event → Option Store
  | .trigger call alertID => some (svc.triggerCorrelation call s alertID).1
  | .others alerts incidents => some { s with alerts, incidents }

/-- The graph that an event stores, if it stores one. -/
def storedGraph (p : Store × Event) : Option CausalityGraph :=
  match p.2 with
  | .trigger call alertID => match (svc.triggerCorrelation call p.1 alertID).2 with
    | .ok graph => graph
    | .error _ => none
  | .others .. => none

/-- The graphs that have been stored, the last one first. -/
def storedGraphs (hist : History Store Event) : List CausalityGraph :=
  hist.filterMap svc.storedGraph

/-- The last graph that was stored for an incident. -/
def lastGraph (hist : History Store Event) (incidentID : GoString) : Option CausalityGraph :=
  (svc.storedGraphs hist).find? fun g => g.incidentID = incidentID

/-! ### What is stored -/

variable {svc} {s s' : Store} {ev : Event} {g : CausalityGraph} {incidentID : GoString}

variable (svc) in
theorem nodes_autoAggregateIncident (call : Call) (s : Store) (alerts : List Alert) :
    (svc.autoAggregateIncident call s alerts).1.nodes = s.nodes ∧
      (svc.autoAggregateIncident call s alerts).1.edges = s.edges := by
  rw [autoAggregateIncident]
  split
  · exact ⟨rfl, rfl⟩
  · split_ifs
    · exact ⟨rfl, rfl⟩
    · exact ⟨rfl, rfl⟩

/-- What is true of every graph that is stored. -/
structure Stored (g : CausalityGraph) : Prop where
  unmarked : Unmarked g.nodes g.edges
  nodes_ne_nil : g.nodes ≠ []
  edges_ne_nil : g.edges ≠ []

/-- **What an event does to the graphs**: nothing, or a graph is stored, its nodes are added, and of
its edges nothing is. -/
theorem handle_graphs (h : svc.handle s ev = some s') :
    (svc.storedGraph (s, ev) = none ∧ s'.nodes = s.nodes ∧ s'.edges = s.edges) ∨
      ∃ g, svc.storedGraph (s, ev) = some g ∧ Stored g ∧ s'.nodes = s.nodes ++ g.nodes ∧
        s'.edges = s.edges := by
  cases ev with
  | others alerts incidents =>
    obtain rfl := Option.some.inj h
    exact .inl ⟨rfl, rfl, rfl⟩
  | trigger call alertID =>
    obtain rfl := Option.some.inj h
    rw [triggerCorrelation, storedGraph]
    dsimp only
    rw [triggerCorrelation]
    cases hroot : s.alerts.findByAlertID alertID with
    | none => exact .inl ⟨rfl, rfl, rfl⟩
    | some root =>
      dsimp only
      cases hgraph : svc.graphOf call.graphID root (svc.findCorrelatedAlerts s.alerts root) with
      | none => exact .inl ⟨rfl, rfl, rfl⟩
      | some graph =>
        -- no edge of a graph is marked as one that the database would take
        have hdag := svc.eq_buildDAG_of_graphOf hgraph
        have hstored : Stored graph := by
          refine ⟨?_, ?_, svc.edges_ne_nil_of_graphOf hgraph⟩
          · rw [hdag]
            exact unmarked_buildDAG ..
          · rw [hdag]
            exact nodes_buildDAG_ne_nil _ _ _ _
        obtain ⟨hnodes, hedges⟩ := svc.nodes_autoAggregateIncident call s
          (svc.findCorrelatedAlerts s.alerts root)
        refine .inr ⟨_, rfl, ⟨hstored.unmarked, hstored.nodes_ne_nil, hstored.edges_ne_nil⟩, ?_, ?_⟩
        · exact congrArg (· ++ graph.nodes) hnodes
        · -- the database takes none of the edges
          have hnone : graph.edges.filter takesEdge = [] :=
            List.filter_eq_nil_iff.mpr fun e he => by simp [hstored.unmarked.edges e he]
          change _ ++ graph.edges.filter takesEdge = _
          rw [hedges, hnone, List.append_nil]

variable {s₀ : Store} {hist : History Store Event}

/-- **What a run leaves in the collections**: the nodes of all graphs, one after the other. -/
structure Left (svc : CausalityService) (s₀ : Store) (hist : History Store Event) (s : Store) :
    Prop where
  stored : ∀ g ∈ svc.storedGraphs hist, Stored g
  nodes : s.nodes = s₀.nodes ++ (svc.storedGraphs hist).reverse.flatMap (·.nodes)
  edges : s.edges = s₀.edges

theorem Left.handle (hinv : Left svc s₀ hist s) (h : svc.handle s ev = some s') :
    Left svc s₀ ((s, ev) :: hist) s' := by
  rcases handle_graphs h with ⟨hnone, hnodes, hedges⟩ | ⟨g, hg, hstored, hnodes, hedges⟩
  · have hsame : svc.storedGraphs ((s, ev) :: hist) = svc.storedGraphs hist :=
      List.filterMap_cons_none hnone
    exact ⟨hsame ▸ hinv.stored, by rw [hsame, hnodes, hinv.nodes], by rw [hedges, hinv.edges]⟩
  · have hmore : svc.storedGraphs ((s, ev) :: hist) = g :: svc.storedGraphs hist :=
      List.filterMap_cons_some hg
    refine ⟨?_, ?_, by rw [hedges, hinv.edges]⟩
    · rw [hmore]
      exact List.forall_mem_cons.mpr ⟨hstored, hinv.stored⟩
    · rw [hmore, hnodes, hinv.nodes, List.reverse_cons, List.flatMap_append, List.flatMap_singleton,
        List.append_assoc]

theorem left_of_reach (h : Reach svc.handle Any s₀ hist s) : Left svc s₀ hist s := by
  refine h.invariant ⟨fun g hg => absurd hg List.not_mem_nil, ?_, rfl⟩
    fun hinv _ hstep => hinv.handle hstep
  exact (List.append_nil _).symm

/-- **A correlation leaves nothing that is found under an incident.** -/
theorem getGraphByIncident_of_reach (h : Reach svc.handle Any s₀ hist s) (hid : incidentID ≠ []) :
    getGraphByIncident s incidentID = getGraphByIncident s₀ incidentID := by
  obtain ⟨hall, hnodes, hedges⟩ := left_of_reach h
  have hnone : ((svc.storedGraphs hist).reverse.flatMap (·.nodes)).filter
      (fun n => n.incidentID = incidentID) = [] := by
    refine List.filter_eq_nil_iff.mpr fun n hn => ?_
    obtain ⟨g, hg, hn⟩ := List.mem_flatMap.mp hn
    rw [decide_eq_true_eq, (hall g (List.mem_reverse.mp hg)).unmarked.nodes n hn]
    exact Ne.symm hid
  simp only [getGraphByIncident, hnodes, hedges, List.filter_append, hnone, List.append_nil]

/-- Under no ID at all, the nodes of all graphs are found. -/
theorem nodes_getGraphByIncident_nil (h : Reach svc.handle Any s₀ hist s) :
    (getGraphByIncident s []).nodes = (getGraphByIncident s₀ []).nodes ++
      (svc.storedGraphs hist).reverse.flatMap (·.nodes) := by
  obtain ⟨hall, hnodes, -⟩ := left_of_reach h
  have hevery : ((svc.storedGraphs hist).reverse.flatMap (·.nodes)).filter
      (fun n => n.incidentID = []) = (svc.storedGraphs hist).reverse.flatMap (·.nodes) := by
    refine List.filter_eq_self.mpr fun n hn => ?_
    obtain ⟨g, hg, hn⟩ := List.mem_flatMap.mp hn
    rw [decide_eq_true_eq, (hall g (List.mem_reverse.mp hg)).unmarked.nodes n hn]
  simp only [getGraphByIncident, hnodes, List.filter_append, hevery]

theorem edges_getGraphByIncident (h : Reach svc.handle Any s₀ hist s) (incidentID : GoString) :
    (getGraphByIncident s incidentID).edges = (getGraphByIncident s₀ incidentID).edges := by
  simp only [getGraphByIncident, (left_of_reach h).edges]

/-! ### What is read back -/

/-- A node, whatever incident it is marked with. -/
def nodeContent (n : CausalityNode) : CausalityNode := { n with incidentID := [] }

/-- An edge, whatever it is marked with and wherever it leads. -/
def edgeContent (e : CausalityEdge) : CausalityEdge :=
  { e with incidentID := [], fromDoc := [], toDoc := [] }

/-- What is read back is a graph: its nodes and edges, each once, and nothing else. -/
def Survives (g readBack : CausalityGraph) : Prop :=
  (readBack.nodes.map nodeContent).Perm (g.nodes.map nodeContent) ∧
    (readBack.edges.map edgeContent).Perm (g.edges.map edgeContent)

/-- The collections had of an incident what a graph has before any graph was stored. If the incident
has no ID, they had the edges only, and no other graph was stored. -/
def AlreadyThere (svc : CausalityService) (s₀ : Store) (hist : History Store Event)
    (g : CausalityGraph) : Prop :=
  if g.incidentID = [] then
    (getGraphByIncident s₀ []).nodes = [] ∧ svc.storedGraphs hist = [g] ∧
      ((getGraphByIncident s₀ []).edges.map edgeContent).Perm (g.edges.map edgeContent)
  else Survives g (getGraphByIncident s₀ g.incidentID)

theorem mem_of_lastGraph (h : svc.lastGraph hist incidentID = some g) :
    g ∈ svc.storedGraphs hist ∧ g.incidentID = incidentID := by
  rw [lastGraph] at h
  have hid := List.find?_some h
  exact ⟨List.mem_of_find?_eq_some h, by simpa using hid⟩

/-- Of graphs that all have nodes, one has as many as all of them only if it is the only one. -/
theorem eq_singleton_of_length {gs : List CausalityGraph} (hg : g ∈ gs)
    (hall : ∀ g ∈ gs, g.nodes ≠ []) (hlen : (gs.flatMap (·.nodes)).length ≤ g.nodes.length) :
    gs = [g] := by
  obtain ⟨before, after, rfl⟩ := List.append_of_mem hg
  simp only [List.flatMap_append, List.flatMap_cons, List.length_append] at hlen
  have hnil : ∀ {l : List CausalityGraph}, (∀ g ∈ l, g.nodes ≠ []) →
      (l.flatMap (·.nodes)).length = 0 → l = [] := by
    intro l hl hzero
    cases l with
    | nil => rfl
    | cons g l =>
      rw [List.flatMap_cons, List.length_append, Nat.add_eq_zero_iff] at hzero
      exact absurd (List.eq_nil_of_length_eq_zero hzero.1) (hl g List.mem_cons_self)
  rw [hnil (fun g hg => hall g (List.mem_append_left _ hg)) (by omega),
    hnil (fun g hg => hall g (List.mem_append_right _ (List.mem_cons_of_mem _ hg))) (by omega)]
  rfl

/-- **The last graph of an incident is read back exactly if it was there before.** -/
theorem survives_iff (h : Reach svc.handle Any s₀ hist s)
    (hlast : svc.lastGraph hist incidentID = some g) :
    Survives g (getGraphByIncident s incidentID) ↔ AlreadyThere svc s₀ hist g := by
  obtain ⟨hmem, rfl⟩ := mem_of_lastGraph hlast
  rw [AlreadyThere]
  split_ifs with hid
  swap
  · rw [getGraphByIncident_of_reach h hid]
  rw [hid, Survives, nodes_getGraphByIncident_nil h, edges_getGraphByIncident h, ← and_assoc]
  refine and_congr_left' ⟨fun hperm => ?_, ?_⟩
  · -- there are no more nodes than those of the graph
    have hlen := hperm.length_eq
    rw [List.length_map, List.length_map, List.length_append] at hlen
    have honly := eq_singleton_of_length (List.mem_reverse.mpr hmem)
      (fun g hg => ((left_of_reach h).stored g (List.mem_reverse.mp hg)).nodes_ne_nil)
      (by omega)
    rw [honly, List.flatMap_singleton] at hlen
    refine ⟨List.eq_nil_of_length_eq_zero (by omega), ?_⟩
    rw [← List.reverse_reverse (svc.storedGraphs hist), honly]
    rfl
  · rintro ⟨hnone, honly⟩
    rw [hnone, honly, List.reverse_singleton, List.flatMap_singleton, List.nil_append]

/-- **Where nothing was there before, no graph is read back.** -/
theorem not_survives_of_empty (hempty : s₀.edges = []) (h : Reach svc.handle Any s₀ hist s)
    (hlast : svc.lastGraph hist incidentID = some g) :
    ¬Survives g (getGraphByIncident s incidentID) := by
  rintro ⟨-, hedges⟩
  rw [edges_getGraphByIncident h] at hedges
  have hnone : (getGraphByIncident s₀ incidentID).edges = [] := by
    simp only [getGraphByIncident, hempty, List.filter_nil]
  rw [hnone, List.map_nil, List.nil_perm, List.map_eq_nil_iff] at hedges
  exact ((left_of_reach h).stored g (mem_of_lastGraph hlast).1).edges_ne_nil hedges

/-! ### Two correlations of the same alerts -/

/-- Each of the two alerts triggers a correlation. The second one is stored for the incident that
the first one made. -/
def sampleTriggers : List Event :=
  [.trigger sampleCall (str "ALT-1"), .trigger ⟨str "GRP-2", 1, 2, 8⟩ (str "ALT-2")]

theorem sampleTriggers_run : ∃ hist s g,
    Run.replay sampleService.handle [] sampleStore sampleTriggers = some (hist, s) ∧
      (sampleService.storedGraphs hist).length = 2 ∧
        sampleService.lastGraph hist sampleCall.newIncidentID = some g := by
  obtain ⟨hist, s, hrun, htwo, hsome⟩ : ∃ hist s,
      Run.replay sampleService.handle [] sampleStore sampleTriggers = some (hist, s) ∧
        (sampleService.storedGraphs hist).length = 2 ∧
          (sampleService.lastGraph hist sampleCall.newIncidentID).isSome = true :=
    ⟨_, _, rfl, by decide +kernel, by decide +kernel⟩
  obtain ⟨g, hg⟩ := Option.isSome_iff_exists.mp hsome
  exact ⟨hist, s, g, hrun, htwo, hg⟩

/-- **The second graph is not read back**, since there was nothing there before. -/
theorem survives_sampleTriggers : ∃ hist s g,
    Run.replay sampleService.handle [] sampleStore sampleTriggers = some (hist, s) ∧
      sampleService.lastGraph hist sampleCall.newIncidentID = some g ∧
        ¬Survives g (getGraphByIncident s sampleCall.newIncidentID) := by
  obtain ⟨hist, s, g, hrun, -, hlast⟩ := sampleTriggers_run
  have hreach := Reach.start.replay hrun
  refine ⟨hist, s, g, hrun, hlast, (survives_iff hreach hlast).not.mpr ?_⟩
  obtain ⟨hmem, hid⟩ := mem_of_lastGraph hlast
  rw [AlreadyThere, hid, if_neg (by decide +kernel)]
  rintro ⟨-, hedges⟩
  exact ((left_of_reach hreach).stored g hmem).edges_ne_nil
    (List.map_eq_nil_iff.mp (List.nil_perm.mp hedges))

/-- **A graph does not survive storage**, even if the collections were empty. -/
theorem not_survives : ¬∀ (svc : CausalityService) (s₀ s : Store) (hist : History Store Event)
    (incidentID : GoString) (g : CausalityGraph), s₀.nodes = [] → s₀.edges = [] →
      Reach svc.handle Any s₀ hist s → svc.lastGraph hist incidentID = some g →
        Survives g (getGraphByIncident s incidentID) := by
  intro h
  obtain ⟨hist, s, g, hrun, -, hlast⟩ := sampleTriggers_run
  have hreach := Reach.start.replay hrun
  exact not_survives_of_empty rfl hreach hlast (h _ _ _ _ _ _ rfl rfl hreach hlast)

end CausalityService

end Incidents

end Xsiam
