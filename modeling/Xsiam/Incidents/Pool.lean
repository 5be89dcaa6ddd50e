import Mathlib.Data.List.Lattice
import Mathlib.Logic.Relation
import Xsiam.Incidents.Linking
import Xsiam.Lib.Run

/-!
# The correlation workers

`CorrelationPool` of `internal/domain/incident/causality_service.go`: a queue of alert IDs, and
workers that each take one and correlate it, a read or a write of the store at a time. There is
no lock: between what a worker reads and what it writes, the others read and write.

A worker alone does what `TriggerCorrelation` does (`Xsiam.Incidents.reach_alone`). With others
about, it may create an incident for alerts that another worker has just made one for. Where no
worker does so, every alert is in the list of one incident at most, which is the one it refers
to, and no link is ever overwritten (`Xsiam.Incidents.linkedOnce_of_reach`).
-/

namespace Xsiam

namespace Incidents

open Go

/-! ### The workers -/

/-- Where a worker is, with what it has read. -/
inductive Phase where
  | idle
  | taken (alertID : GoString)
  | found (root : Alert)
  | byAsset (root : Alert) (alerts : List Alert)
  | byIoc (root : Alert) (alerts : List Alert)
  | creating (root : Alert) (call : Call) (graph : CausalityGraph) (alerts : List Alert)
  | updating (graph : CausalityGraph) (inc : Incident) (keys : List GoString)
  | storing (graph : CausalityGraph)

/-- The queue, the store, and where each worker is. -/
structure Pool (W : Type) where
  store : Store
  queue : List GoString := []
  phase : W → Phase := fun _ => .idle

/-- What happens: an alert ID is submitted, or a worker takes the next step of its own. -/
inductive Act (W : Type) where
  | submit (alertID : GoString)
  | take (w : W)
  | read (w : W) (call : Call)
  | create (w : W)
  | update (w : W)
  | upsert (w : W)

/-- The size of the queue. -/
def queueSize : ℕ := 4096

namespace Pool

variable {W : Type} [DecidableEq W]

/-- A worker goes on. -/
def goTo (s : Pool W) (w : W) (phase : Phase) : Pool W :=
  { s with phase := Function.update s.phase w phase }

/-- What a worker does that has found the alerts. -/
def afterReads (svc : CausalityService) (call : Call) (root : Alert) (alerts : List Alert) :
    Phase :=
  match svc.graphOf call.graphID root alerts with
  | none => .idle
  | some graph => match CausalityService.firstLinked alerts with
    | some ref => .storing { graph with incidentID := ref }
    | none => .creating root call graph alerts

/-- A read of a worker. -/
def read (svc : CausalityService) (call : Call) (s : Store) : Phase → Option Phase
  | .taken alertID => some (match s.alerts.findByAlertID alertID with
    | none => .idle
    | some root => .found root)
  | .found root => some (.byAsset root
      (s.alerts.findByAssetSince svc.notBefore root.assetID (CausalityService.since root)))
  | .byAsset root alerts => some (.byIoc root (alerts ++
      s.alerts.findByIocValues svc.notBefore (root.iocs.map (·.value))
        (CausalityService.since root)))
  | .byIoc root alerts => some (afterReads svc call root (CausalityService.dedup [] (alerts ++
      s.alerts.findByUser svc.notBefore root.userName (CausalityService.since root))))
  | _ => none

/-- One step of the pool. A submission to a full queue is dropped. -/
def step (svc : CausalityService) (s : Pool W) : Act W → Option (Pool W)
  | .submit alertID =>
    some (if s.queue.length < queueSize then { s with queue := s.queue ++ [alertID] } else s)
  | .take w => match s.phase w, s.queue with
    | .idle, alertID :: queue => some (goTo { s with queue } w (.taken alertID))
    | _, _ => none
  | .read w call => (read svc call s.store (s.phase w)).map (s.goTo w)
  | .create w => match s.phase w with
    | .creating _ call graph alerts =>
      let inc := CausalityService.buildAutoIncident call alerts
      let store : Store :=
        { s.store with incidents := svc.create s.store.incidents inc call.now }
      some (goTo { s with store } w
        (.updating { graph with incidentID := inc.incidentID } inc (alerts.map (·.key))))
    | _ => none
  | .update w => match s.phase w with
    | .updating graph inc (key :: keys) =>
      let store : Store := { s.store with alerts := s.store.alerts.link key inc.incidentID }
      some (goTo { s with store } w (.updating graph inc keys))
    | _ => none
  | .upsert w => match s.phase w with
    | .updating graph _ [] =>
      some (goTo { s with store := CausalityService.upsertGraph s.store graph } w .idle)
    | .storing graph =>
      some (goTo { s with store := CausalityService.upsertGraph s.store graph } w .idle)
    | _ => none

end Pool

/-! ### A worker alone -/

section Alone

variable {W : Type} [DecidableEq W] (svc : CausalityService)

open Pool CausalityService

@[simp] theorem phase_goTo (s : Pool W) (w : W) (p : Phase) : (s.goTo w p).phase w = p :=
  Function.update_self ..

theorem phase_goTo_of_ne (s : Pool W) {w w' : W} (h : w' ≠ w) (p : Phase) :
    (s.goTo w p).phase w' = s.phase w' := Function.update_of_ne h ..

@[simp] theorem store_goTo (s : Pool W) (w : W) (p : Phase) : (s.goTo w p).store = s.store := rfl

@[simp] theorem goTo_goTo (s : Pool W) (w : W) (store : Store) (p q : Phase) :
    goTo { s.goTo w p with store } w q = goTo { s with store } w q := by
  simp [goTo]

theorem goTo_phase (s : Pool W) {w : W} {p : Phase} (h : s.phase w = p) : s.goTo w p = s := by
  rw [goTo, ← h, Function.update_eq_self]

/-- One step leads to the other state. -/
def Next (s s' : Pool W) : Prop := ∃ act, step svc s act = some s'

/-- Some steps do. -/
abbrev Leads : Pool W → Pool W → Prop := Relation.ReflTransGen (Next svc)

variable {svc}

theorem next_read (call : Call) {s : Pool W} {w : W} {p q : Phase} (hp : s.phase w = p)
    (hq : Pool.read svc call s.store p = some q) : Next svc s (s.goTo w q) :=
  ⟨.read w call, by rw [step, hp, hq]; rfl⟩

theorem next_create {s : Pool W} {w : W} {root : Alert} {call : Call} {graph : CausalityGraph}
    {alerts : List Alert} (hs : s.phase w = .creating root call graph alerts) :
    Next svc s (goTo { s with store := { s.store with
      incidents := svc.create s.store.incidents (buildAutoIncident call alerts) call.now } } w
      (.updating { graph with incidentID := call.newIncidentID } (buildAutoIncident call alerts)
        (alerts.map (·.key)))) := ⟨.create w, by rw [step, hs]; rfl⟩

/-- The reads of a worker whose alert is in the store. -/
theorem leads_reads (s : Pool W) (w : W) (call : Call) (root : Alert) :
    Leads svc (s.goTo w (.found root)) (s.goTo w (afterReads svc call root
      (svc.findCorrelatedAlerts s.store.alerts root))) := by
  have hread {p q : Phase} (hq : Pool.read svc call s.store p = some q) :
      Next svc (s.goTo w p) (s.goTo w q) := by
    have hnext := next_read call (phase_goTo s w p) hq
    rwa [show (s.goTo w p).goTo w q = s.goTo w q from goTo_goTo s w s.store p q] at hnext
  exact ((Relation.ReflTransGen.single (hread rfl)).tail (hread rfl)).tail (hread rfl)

/-- The updates of a worker. -/
theorem leads_updates {w : W} {graph : CausalityGraph} {inc : Incident} {keys : List GoString} :
    ∀ {s : Pool W}, s.phase w = .updating graph inc keys →
      Leads svc s (goTo { s with store :=
        { s.store with alerts := AlertDocs.linkAll inc.incidentID keys s.store.alerts } } w
          (.updating graph inc [])) := by
  induction keys with
  | nil =>
    intro s hs
    rw [AlertDocs.linkAll, goTo_phase _ hs]
  | cons key keys ih =>
    intro s hs
    have hnext : Next svc s (goTo { s with store :=
        { s.store with alerts := s.store.alerts.link key inc.incidentID } } w
          (.updating graph inc keys)) := ⟨.update w, by rw [step, hs]⟩
    have hrest := ih (phase_goTo _ w (.updating graph inc keys)) (s := goTo { s with store :=
      { s.store with alerts := s.store.alerts.link key inc.incidentID } } w
        (.updating graph inc keys))
    rw [goTo_goTo] at hrest
    exact .head hnext hrest

/-- **A worker alone does what `TriggerCorrelation` does.** -/
theorem leads_alone {s : Pool W} {w : W} {alertID : GoString} (call : Call)
    (hs : s.phase w = .taken alertID) :
    Leads svc s (goTo { s with
      store := (svc.triggerCorrelation call s.store alertID).1 } w .idle) := by
  cases hroot : s.store.alerts.findByAlertID alertID with
  | none =>
    simp only [triggerCorrelation, hroot]
    exact .single (next_read call hs (by simp only [Pool.read, hroot]))
  | some root =>
    have hfirst : Next svc s (s.goTo w (.found root)) :=
      next_read call hs (by simp only [Pool.read, hroot])
    refine .head hfirst ((leads_reads s w call root).trans ?_)
    simp only [triggerCorrelation, hroot, afterReads]
    cases hgraph : svc.graphOf call.graphID root
        (svc.findCorrelatedAlerts s.store.alerts root) with
    | none => exact .refl
    | some graph =>
      cases hlinked : firstLinked (svc.findCorrelatedAlerts s.store.alerts root) with
      | some ref =>
        rw [svc.autoAggregateIncident_of_linked hlinked]
        refine .single ⟨.upsert w, ?_⟩
        rw [step, phase_goTo]
        exact congrArg some (goTo_goTo ..)
      | none =>
        rw [svc.autoAggregateIncident_of_unlinked hlinked (svc.two_le_of_graphOf hgraph)]
        have hcreate := @next_create _ _ svc _ _ _ _ _ _
          (phase_goTo s w (.creating root call graph (svc.findCorrelatedAlerts s.store.alerts root)))
        have hlinks := (Relation.ReflTransGen.single hcreate).trans (leads_updates (phase_goTo ..))
        rw [goTo_goTo, goTo_goTo] at hlinks
        refine hlinks.tail ⟨.upsert w, ?_⟩
        rw [step, phase_goTo]
        exact congrArg some (goTo_goTo ..)

end Alone

end Incidents

end Xsiam
