import Xsiam.Go.Float
import Xsiam.Incidents.Repository

/-!
# The smart score of an incident

`SmartScoreService` of `internal/domain/incident/smart_score_service.go`: the weighted score, the
cache of scores, and the run over the incidents of a tenant. The run asks for the incidents
whose status is `open`, and there is no such status: it calculates the scores of those a client
has given it (`Xsiam.Incidents.calculated_recalcForTenant`).
-/

namespace Xsiam

namespace Incidents

open Go Repository

/-! ### The score -/

/-- The severity factor. -/
def severityFactor (severity : GoString) : Float64 :=
  if severity = str "critical" then .c1
  else if severity = str "high" then .c0_7
  else if severity = str "medium" then .c0_4
  else if severity = str "low" then .c0_2 else .c0_5

variable (ops : FloatOps)

/-- The factor of the number of alerts, on a log scale. -/
def alertFactor (alertCount : ℕ) : Float64 :=
  let factor := ops.div (ops.log10 (ops.add (ops.ofInt alertCount) .c1)) (ops.log10 .c21)
  if Float64.lt .c1 factor then .c1 else factor

/-- The factor of the number of tactics. -/
def mitreFactor (inc : Incident) : Float64 :=
  let tacticCount : ℕ :=
    if inc.mitreTactics = [] ∧ inc.mitreTactic ≠ [] then 1 else inc.mitreTactics.length
  ops.min (ops.div (ops.ofInt tacticCount) .c5) .c1

/-- The factor of the age. -/
def ageFactor (age : Time) : Float64 :=
  if 72 * hour < age then .c1 else if 24 * hour < age then .c0_5 else ⟨0⟩

/-- `calculateWeightedScore` -/
def calculateWeightedScore (inc : Incident) (alertCount : ℕ) (now : Time) : Float64 :=
  let raw := ops.add (ops.add (ops.add (ops.add
    (ops.mul (severityFactor inc.severity) .c0_4)
    (ops.mul (alertFactor ops alertCount) .c0_2))
    (ops.mul .c0_5 .c0_15))
    (ops.mul (mitreFactor ops inc) .c0_15))
    (ops.mul (ageFactor (now - inc.firstSeen)) .c0_1)
  ops.round (ops.min (ops.mul raw .c100) .c100)

/-! ### The cache -/

/-- `SmartScoreEntry` -/
structure SmartScoreEntry where
  score : Float64
  factors : GoMap Float64
  computedAt : Time

/-- How long an entry of the cache is good for. -/
def ttl : Time := hour / 4

/-- The incidents, the cache of `SmartScoreService`, and the keys of the incidents whose scores
have been calculated. -/
structure SmartState where
  docs : List Incident
  cache : GoMap SmartScoreEntry := ∅
  calculated : List GoString := []

/-- The severity an incident gets for its score. -/
def propagated (inc : Incident) (score : Float64) : Option GoString :=
  if Float64.le .c80 score ∧ inc.severity ≠ str "critical" then some (str "critical")
  else if Float64.le .c60 score ∧ inc.severity = str "low" then some (str "high") else none

/-- What `Calculate` writes for an incident. -/
def calculated (alertCount : ℕ) (now : Time) (s : SmartState) (key : GoString) (inc : Incident) :
    SmartState × SmartScoreEntry :=
  let score := calculateWeightedScore ops inc alertCount now
  let entry : SmartScoreEntry := {
    score
    factors := (GoMap.insertAll ∅
      [(str "severity", inc.smartScore), (str "alert_count", ops.ofInt alertCount)])
    computedAt := now }
  let scored := updateIncident s.docs key fun d => { d with smartScore := score }
  ({ docs := match propagated inc score with
      | some severity => updateIncident scored key fun d => { d with severity }
      | none => scored
     cache := s.cache.insert key entry
     calculated := s.calculated ++ [key] }, entry)

variable (alertKeys : GoString → List GoString)

/-- `Calculate`. The alerts of an incident are those `ListAlertKeys` lists. -/
def calculate (now : Time) (s : SmartState) (key : GoString) :
    SmartState × Except GoString SmartScoreEntry :=
  match (s.cache[key]?).filter fun entry => now - entry.computedAt < ttl with
  | some entry => (s, .ok entry)
  | none => match getByID s.docs key with
    | none => (s, .error (str "incident " ++ key ++ str " not found"))
    | some inc =>
      let r := calculated ops (alertKeys key).length now s key inc
      (r.1, .ok r.2)

/-- `InvalidateAndRecalc` -/
def invalidateAndRecalc (now : Time) (s : SmartState) (key : GoString) :
    SmartState × Option GoString :=
  match calculate ops alertKeys now { s with cache := s.cache.erase key } key with
  | (s', .error err) => (s', some err)
  | (s', .ok _) => (s', none)

variable (now : GoString → Time)

/-- The loop of `RecalcForTenant`, each incident at its time. -/
def recalcLoop : List GoString → SmartState → SmartState × Option GoString
  | [], s => (s, none)
  | key :: keys, s =>
    match invalidateAndRecalc ops alertKeys (now key) s key with
    | (s', some err) => (s', some err)
    | (s', none) => recalcLoop keys s'

/-- The list `RecalcForTenant` asks for. -/
def openIncidents (tenantID : GoString) : ListOptions Incident :=
  IncidentListFilter.toList { tenantID, status := str "open", pageSize := 1000, page := 1 }

/-- `RecalcForTenant` -/
def recalcForTenant (cache : GoMap SmartScoreEntry) (c : DBCollection Incident)
    (tenantID : GoString) : SmartState × Option GoString :=
  match findPaged c (openIncidents tenantID) with
  | .error err => ({ docs := c.docs, cache }, some err)
  | .ok (incidents, _) =>
    recalcLoop ops alertKeys now (incidents.map (·.key)) { docs := c.docs, cache }

/-! ### Whose scores are calculated -/

/-- An incident that is in the collection gets its score, and stays there. -/
theorem invalidateAndRecalc_of_mem {t : Time} {s : SmartState} {key : GoString}
    (h : key ∈ s.docs.map (·.key)) : ∃ s', invalidateAndRecalc ops alertKeys t s key = (s', none) ∧
      s'.calculated = s.calculated ++ [key] ∧ s'.docs.map (·.key) = s.docs.map (·.key) := by
  obtain ⟨inc, hget⟩ : ∃ inc, getByID s.docs key = some inc := by
    rw [← Option.isSome_iff_exists, getByID, List.find?_isSome]
    obtain ⟨d, hd, rfl⟩ := List.mem_map.mp h
    exact ⟨d, hd, decide_eq_true rfl⟩
  have hmiss : (s.cache.erase key)[key]? = none := by
    rw [GoMap.getElem?_erase, if_pos rfl]
  refine ⟨_, by rw [invalidateAndRecalc, calculate, hmiss, hget]; rfl, rfl, ?_⟩
  have hscored (score : Float64) :
      (updateIncident s.docs key fun d => { d with smartScore := score }).map (·.key) =
        s.docs.map (·.key) := by
    rw [map_key_updateIncident]
    exact fun _ => rfl
  rw [calculated]
  dsimp only
  split
  · rw [map_key_updateIncident (by exact fun _ => rfl), hscored]
  · exact hscored _

/-- A run over incidents of the collection gives each of them its score. -/
theorem calculated_recalcLoop {keys : List GoString} :
    ∀ {s : SmartState}, (∀ key ∈ keys, key ∈ s.docs.map (·.key)) →
      (recalcLoop ops alertKeys now keys s).1.calculated = s.calculated ++ keys ∧
        (recalcLoop ops alertKeys now keys s).2 = none := by
  induction keys with
  | nil => intro s _; exact ⟨(List.append_nil _).symm, rfl⟩
  | cons key keys ih =>
    intro s h
    obtain ⟨hkey, hkeys⟩ := List.forall_mem_cons.mp h
    obtain ⟨s', hrun, hcalc, hdocs⟩ := invalidateAndRecalc_of_mem ops alertKeys (t := now key) hkey
    obtain ⟨hrest, herr⟩ := ih (s := s') fun k hk => by rw [hdocs]; exact hkeys k hk
    rw [recalcLoop, hrun]
    exact ⟨by rw [hrest, hcalc, List.append_assoc]; rfl, herr⟩

/-- **What the run over a tenant calculates**: the first hundred incidents whose status is the
text `open`, by their last activity. -/
theorem calculated_recalcForTenant (cache : GoMap SmartScoreEntry) (c : DBCollection Incident)
    (tenantID : GoString) :
    (recalcForTenant ops alertKeys now cache c tenantID).1.calculated =
      (((c.matching (openIncidents tenantID)).take 100).map (·.key)) ∧
    (recalcForTenant ops alertKeys now cache c tenantID).2 = none := by
  have hsort : (openIncidents tenantID).SortsByPath :=
    ListOptions.sortsByPath_of_path (str "last_activity") (by decide +kernel)
      (by decide +kernel) rfl
  obtain ⟨pageMeta, hpage⟩ := findPaged_first (c := c) hsort rfl
  rw [recalcForTenant, hpage]
  refine calculated_recalcLoop ops alertKeys now fun key hkey => ?_
  obtain ⟨i, hi, rfl⟩ := List.mem_map.mp hkey
  exact List.mem_map_of_mem (mem_matching.mp (List.mem_of_mem_take hi)).1

end Incidents

end Xsiam
