import Mathlib.Tactic.Linarith
import Mathlib.Tactic.NormNum
import Xsiam.Go.Numbers
import Xsiam.Incidents.SmartScore

/-!
# How the smart score feeds back

`Calculate` of `internal/domain/incident/smart_score_service.go` reads the severity of an incident for
the score and writes it for the score. Here it is over any numbers (`Xsiam.Incidents.ScoreState`):
over floats it is what the service does (`Xsiam.Incidents.ScoreState.calculate_floats`), and over
exact numbers, with any factor of the alerts between zero and one, it can be said when the one feeds
back into the other.

All but the severity is worth between 7.5 and 52.5 points, and a severity a whole number of them. So
a score says how much the rest is worth: from 51.5 points on a high incident has 80 and is raised to
critical, and a low one has 60 and is raised to high; no other severity is ever raised
(`Xsiam.Incidents.propagate_exact`). What is raised has more points in the next calculation. So a
score is stable exactly where nothing is raised, and otherwise from the third calculation on
(`Xsiam.Incidents.stable_iff_and_raised`).
-/

namespace Xsiam

namespace Incidents

open Go Repository

variable {K : Type}

/-! ### The score over any numbers -/

section Score

variable (N : Numbers K)

/-- The severity factor. -/
def severityWeight (severity : GoString) : K :=
  if severity = str "critical" then N.const .c1
  else if severity = str "high" then N.const .c0_7
  else if severity = str "medium" then N.const .c0_4
  else if severity = str "low" then N.const .c0_2 else N.const .c0_5

/-- The factor of the number of tactics. -/
def mitreWeight (inc : Incident) : K :=
  let tacticCount : ℕ :=
    if inc.mitreTactics = [] ∧ inc.mitreTactic ≠ [] then 1 else inc.mitreTactics.length
  N.min (N.div (N.ofInt tacticCount) (N.const .c5)) (N.const .c1)

/-- The factor of the age. -/
def ageWeight (age : Time) : K :=
  if 72 * hour < age then N.const .c1 else if 24 * hour < age then N.const .c0_5 else N.const .zero

/-- `calculateWeightedScore`, with the factor of the number of alerts. -/
def weightedScore (factor : K) (inc : Incident) (now : Time) : K :=
  let raw := N.add (N.add (N.add (N.add
    (N.mul (severityWeight N inc.severity) (N.const .c0_4))
    (N.mul factor (N.const .c0_2)))
    (N.mul (N.const .c0_5) (N.const .c0_15)))
    (N.mul (mitreWeight N inc) (N.const .c0_15)))
    (N.mul (ageWeight N (now - inc.firstSeen)) (N.const .c0_1))
  N.round (N.min (N.mul raw (N.const .c100)) (N.const .c100))

/-- The severity an incident gets for its score. -/
def propagate (severity : GoString) (score : K) : Option GoString :=
  if N.le (N.const .c80) score ∧ severity ≠ str "critical" then some (str "critical")
  else if N.le (N.const .c60) score ∧ severity = str "low" then some (str "high") else none

end Score

/-- Over floats it is the score of the service. -/
theorem calculateWeightedScore_eq (ops : FloatOps) (inc : Incident) (alertCount : ℕ) (now : Time) :
    calculateWeightedScore ops inc alertCount now =
      weightedScore (.floats ops) (alertFactor ops alertCount) inc now := by
  rw [calculateWeightedScore, weightedScore, severityFactor, severityWeight, mitreFactor,
    mitreWeight, ageFactor, ageWeight]
  simp only [Numbers.floats, Literal.float]

/-! ### The incidents and the cache -/

/-- An incident and its score; what the incident itself has for a score is not read. -/
structure ScoredIncident (K : Type) where
  doc : Incident
  smartScore : K

/-- `SmartScoreEntry` -/
structure ScoreEntry (K : Type) where
  score : K
  factors : GoMap K
  computedAt : Time

/-- The incidents, and the cache of `SmartScoreService`. -/
structure ScoreState (K : Type) where
  docs : List (ScoredIncident K)
  cache : GoMap (ScoreEntry K) := ∅

namespace ScoreState

/-- `GetByID` -/
def getByID (s : ScoreState K) (key : GoString) : Option (ScoredIncident K) :=
  s.docs.find? fun d => d.doc.key = key

/-- `UpdateDocument` on the collection. -/
def updateDocs (docs : List (ScoredIncident K)) (key : GoString)
    (patch : ScoredIncident K → ScoredIncident K) : List (ScoredIncident K) :=
  docs.map fun d => if d.doc.key = key then patch d else d

/-- What `Calculate` leaves of an incident. -/
def scored (N : Numbers K) (factor : K) (now : Time) (d : ScoredIncident K) : ScoredIncident K :=
  let score := weightedScore N factor d.doc now
  { doc := { d.doc with
      severity := (propagate N d.doc.severity score).getD d.doc.severity }
    smartScore := score }

variable (N : Numbers K) (factor : ℕ → K) (alertKeys : GoString → List GoString) (now : Time)

/-- What `Calculate` writes for an incident. -/
def calculated (s : ScoreState K) (key : GoString) (inc : ScoredIncident K) :
    ScoreState K × ScoreEntry K :=
  let alertCount := (alertKeys key).length
  let score := weightedScore N (factor alertCount) inc.doc now
  let entry : ScoreEntry K := {
    score
    factors := (GoMap.insertAll ∅
      [(str "severity", inc.smartScore), (str "alert_count", N.ofInt alertCount)])
    computedAt := now }
  let docs := updateDocs s.docs key fun d => { d with smartScore := score }
  ({ docs := match propagate N inc.doc.severity score with
      | some severity => updateDocs docs key fun d => { d with doc := { d.doc with severity } }
      | none => docs
     cache := s.cache.insert key entry }, entry)

/-- `Calculate` -/
def calculate (s : ScoreState K) (key : GoString) :
    ScoreState K × Except GoString (ScoreEntry K) :=
  match (s.cache[key]?).filter fun entry => now - entry.computedAt < ttl with
  | some entry => (s, .ok entry)
  | none => match s.getByID key with
    | none => (s, .error (str "incident " ++ key ++ str " not found"))
    | some inc =>
      let r := calculated N factor alertKeys now s key inc
      (r.1, .ok r.2)

/-- `Calculate` to completion, with no entry in the cache, as `InvalidateAndRecalc` has it. -/
def recalc (s : ScoreState K) (key : GoString) : ScoreState K × Except GoString (ScoreEntry K) :=
  calculate N factor alertKeys now { s with cache := s.cache.erase key } key

/-! ### Over floats -/

/-- The incident with the score. -/
def toIncident (d : ScoredIncident Float64) : Incident := { d.doc with smartScore := d.smartScore }

def toEntry (e : ScoreEntry Float64) : SmartScoreEntry := ⟨e.score, e.factors, e.computedAt⟩

/-- A state of the service is one over floats. -/
structure Same (s : ScoreState Float64) (t : SmartState) : Prop where
  docs : t.docs = s.docs.map toIncident
  cache : ∀ key : GoString, t.cache[key]? = (s.cache[key]?).map toEntry

variable {s : ScoreState Float64} {t : SmartState}

theorem Same.getByID (h : Same s t) (key : GoString) :
    Incidents.getByID t.docs key = (s.getByID key).map toIncident := by
  rw [Incidents.getByID, h.docs, List.find?_map, ScoreState.getByID]
  rfl

/-- An update of an incident and of its score is one of the incident with the score. -/
theorem map_update (docs : List (ScoredIncident Float64)) (key : GoString)
    (patch : ScoredIncident Float64 → ScoredIncident Float64) (patch' : Incident → Incident)
    (h : ∀ d, toIncident (patch d) = patch' (toIncident d)) :
    (updateDocs docs key patch).map toIncident =
      updateIncident (docs.map toIncident) key patch' := by
  rw [updateIncident, updateDocs, List.map_map, List.map_map]
  refine List.map_congr_left fun d _ => ?_
  rw [Function.comp_apply, Function.comp_apply]
  by_cases hkey : d.doc.key = key
  · rw [if_pos hkey, if_pos (show (toIncident d).key = key from hkey), h]
  · rw [if_neg hkey, if_neg (show ¬(toIncident d).key = key from hkey)]

/-- What is written is the same. -/
theorem calculated_floats (ops : FloatOps) (h : Same s t) (key : GoString)
    (d : ScoredIncident Float64) :
    Same (calculated (.floats ops) (alertFactor ops) alertKeys now s key d).1
        (Incidents.calculated ops (alertKeys key).length now t key (toIncident d)).1 ∧
      (Incidents.calculated ops (alertKeys key).length now t key (toIncident d)).2 =
        toEntry (calculated (.floats ops) (alertFactor ops) alertKeys now s key d).2 := by
  have hscore : calculateWeightedScore ops (toIncident d) (alertKeys key).length now =
      weightedScore (.floats ops) (alertFactor ops (alertKeys key).length) d.doc now := by
    rw [calculateWeightedScore_eq]
    rfl
  have hentry : (Incidents.calculated ops (alertKeys key).length now t key (toIncident d)).2 =
      toEntry (calculated (.floats ops) (alertFactor ops) alertKeys now s key d).2 := by
    simp only [Incidents.calculated, hscore]
    rfl
  refine ⟨⟨?_, fun k => ?_⟩, hentry⟩
  · have hpropagated (x : Float64) : propagated (toIncident d) x =
        propagate (.floats ops) d.doc.severity x := rfl
    have hset (score : Float64) := map_update s.docs key
      (fun d => { d with smartScore := score }) (fun d => { d with smartScore := score })
      fun _ => rfl
    simp only [Incidents.calculated, calculated, hscore, hpropagated, h.docs, ← hset]
    cases propagate (.floats ops) d.doc.severity
      (weightedScore (.floats ops) (alertFactor ops (alertKeys key).length) d.doc now) with
    | some severity => exact (map_update _ key _ _ fun _ => rfl).symm
    | none => rfl
  · have hleft : (Incidents.calculated ops (alertKeys key).length now t key
        (toIncident d)).1.cache = t.cache.insert key
          (Incidents.calculated ops (alertKeys key).length now t key (toIncident d)).2 := rfl
    rw [hleft, hentry, GoMap.getElem?_insert, ScoreState.calculated, GoMap.getElem?_insert]
    split_ifs
    · rfl
    · exact h.cache k

/-- **Over floats it is the `Calculate` of the service.** -/
theorem calculate_floats (ops : FloatOps) (h : Same s t) (key : GoString) :
    Same (calculate (.floats ops) (alertFactor ops) alertKeys now s key).1
        (Incidents.calculate ops alertKeys now t key).1 ∧
      (Incidents.calculate ops alertKeys now t key).2 =
        (calculate (.floats ops) (alertFactor ops) alertKeys now s key).2.map toEntry := by
  have hcache : (t.cache[key]?).filter (fun entry => now - entry.computedAt < ttl) =
      ((s.cache[key]?).filter fun entry => now - entry.computedAt < ttl).map toEntry := by
    rw [h.cache, Option.filter_map]
    rfl
  rw [calculate, Incidents.calculate, hcache, h.getByID]
  cases (s.cache[key]?).filter fun entry => now - entry.computedAt < ttl with
  | some entry => exact ⟨h, rfl⟩
  | none =>
    cases s.getByID key with
    | none => exact ⟨h, rfl⟩
    | some d =>
      obtain ⟨hsame, hentry⟩ := calculated_floats alertKeys now ops h key d
      exact ⟨hsame, congrArg Except.ok hentry⟩

/-! ### One calculation -/

section Step

variable {s : ScoreState K} {key : GoString} {d : ScoredIncident K}

theorem find?_updateDocs (docs : List (ScoredIncident K)) (key : GoString)
    (patch : ScoredIncident K → ScoredIncident K) (hpatch : ∀ d, (patch d).doc.key = d.doc.key) :
    (updateDocs docs key patch).find? (fun d => d.doc.key = key) =
      (docs.find? fun d => d.doc.key = key).map patch := by
  induction docs with
  | nil => rfl
  | cons e docs ih =>
    rw [updateDocs, List.map_cons, List.find?_cons, List.find?_cons]
    by_cases hkey : e.doc.key = key
    · rw [if_pos hkey, hpatch, decide_eq_true hkey]
      rfl
    · rw [if_neg hkey, decide_eq_false hkey]
      exact ih

/-- **What one calculation does**: the incident gets its score, and a severity for it. -/
theorem recalc_of_some (N : Numbers K) (factor : ℕ → K) (alertKeys : GoString → List GoString)
    (now : Time) (h : s.getByID key = some d) :
    (recalc N factor alertKeys now s key).1.getByID key =
        some (scored N (factor (alertKeys key).length) now d) ∧
      (recalc N factor alertKeys now s key).2.map (·.score) =
        .ok (weightedScore N (factor (alertKeys key).length) d.doc now) := by
  have hmiss : (s.cache.erase key)[key]? = none := by
    rw [GoMap.getElem?_erase, if_pos rfl]
  have hget : getByID { s with cache := s.cache.erase key } key = some d := h
  have hscore : ((updateDocs s.docs key fun e => { e with
      smartScore := weightedScore N (factor (alertKeys key).length) d.doc now }).find?
        fun e => e.doc.key = key) =
      some { d with smartScore := weightedScore N (factor (alertKeys key).length) d.doc now } := by
    refine (find?_updateDocs s.docs key _ ?_).trans (congrArg (Option.map _) h)
    exact fun _ => rfl
  rw [recalc, calculate, hmiss, hget]
  refine ⟨?_, rfl⟩
  simp only [Option.filter_none, calculated, getByID, scored]
  cases propagate N d.doc.severity (weightedScore N (factor (alertKeys key).length) d.doc now) with
  | some severity =>
    refine (find?_updateDocs _ key _ ?_).trans (congrArg (Option.map _) hscore)
    exact fun _ => rfl
  | none => exact hscore

/-- Where there is no incident there is no score. -/
theorem recalc_of_none (N : Numbers K) (factor : ℕ → K) (alertKeys : GoString → List GoString)
    (now : Time) (h : s.getByID key = none) :
    (recalc N factor alertKeys now s key).1.getByID key = none ∧
      (recalc N factor alertKeys now s key).2.map (·.score) =
        .error (str "incident " ++ key ++ str " not found") := by
  have hmiss : (s.cache.erase key)[key]? = none := by
    rw [GoMap.getElem?_erase, if_pos rfl]
  have hget : getByID { s with cache := s.cache.erase key } key = none := h
  rw [recalc, calculate, hmiss, hget]
  exact ⟨h, rfl⟩

end Step

end ScoreState

/-! ### The score over exact numbers -/

section Exact

variable {f : ℚ} {inc : Incident} {now : Time}

/-- What all factors but the severity are worth, in points. -/
def restPoints (f : ℚ) (inc : Incident) (now : Time) : ℚ :=
  (f * (2 / 10) + 5 / 10 * (15 / 100) + mitreWeight .exact inc * (15 / 100) +
    ageWeight .exact (now - inc.firstSeen) * (1 / 10)) * 100

/-- What a severity is worth. -/
def severityPoints (severity : GoString) : ℤ :=
  if severity = str "critical" then 40
  else if severity = str "high" then 28
  else if severity = str "medium" then 16
  else if severity = str "low" then 8 else 20

theorem severityWeight_exact (severity : GoString) :
    severityWeight .exact severity * (4 / 10) * 100 = (severityPoints severity : ℚ) := by
  rw [severityWeight, severityPoints]
  simp only [Numbers.exact, Literal.exact]
  split_ifs <;> norm_num

theorem severityPoints_mem (severity : GoString) :
    0 ≤ severityPoints severity ∧ severityPoints severity ≤ 40 := by
  rw [severityPoints]
  split_ifs <;> norm_num

theorem mitreWeight_mem (inc : Incident) :
    0 ≤ mitreWeight .exact inc ∧ mitreWeight .exact inc ≤ 1 := by
  rw [mitreWeight]
  simp only [Numbers.exact, Literal.exact]
  exact ⟨le_min (by positivity) zero_le_one, min_le_right ..⟩

theorem ageWeight_mem (age : Time) : 0 ≤ ageWeight .exact age ∧ ageWeight .exact age ≤ 1 := by
  rw [ageWeight]
  simp only [Numbers.exact, Literal.exact]
  split_ifs <;> norm_num

theorem restPoints_mem (hf : 0 ≤ f ∧ f ≤ 1) (inc : Incident) (now : Time) :
    0 ≤ restPoints f inc now ∧ restPoints f inc now ≤ 525 / 10 := by
  have hmitre := mitreWeight_mem inc
  have hage := ageWeight_mem (now - inc.firstSeen)
  rw [restPoints]
  constructor
  · linarith
  · linarith

/-- **The score**: what the severity is worth, and the rest, rounded. -/
theorem weightedScore_exact (hf : 0 ≤ f ∧ f ≤ 1) :
    weightedScore .exact f inc now = roundHalf (restPoints f inc now) + severityPoints inc.severity := by
  obtain ⟨hnonneg, hle⟩ := restPoints_mem hf inc now
  obtain ⟨hpoints, hforty⟩ := severityPoints_mem inc.severity
  have hforty' : (severityPoints inc.severity : ℚ) ≤ 40 := by exact_mod_cast hforty
  have hraw : (severityWeight .exact inc.severity * (4 / 10) + f * (2 / 10) +
      5 / 10 * (15 / 100) + mitreWeight .exact inc * (15 / 100) +
      ageWeight .exact (now - inc.firstSeen) * (1 / 10)) * 100 =
      restPoints f inc now + severityPoints inc.severity := by
    rw [restPoints, ← severityWeight_exact]
    ring
  have hscore : weightedScore .exact f inc now =
      roundHalf (min (restPoints f inc now + severityPoints inc.severity) 100) := by
    rw [← hraw]
    rfl
  rw [hscore, min_eq_left (by linarith), roundHalf_add_int hnonneg hpoints]

/-- The rest is worth so much that a low or high incident is raised. -/
def Heavy (f : ℚ) (inc : Incident) (now : Time) : Prop := 515 / 10 ≤ restPoints f inc now

instance (f : ℚ) (inc : Incident) (now : Time) : Decidable (Heavy f inc now) :=
  inferInstanceAs (Decidable (_ ≤ _))

/-- The severity above one that is raised. -/
def raised (severity : GoString) : Option GoString :=
  if severity = str "high" then some (str "critical")
  else if severity = str "low" then some (str "high") else none

/-- A score is from `n` on where the rest is worth as much as the severity leaves of it. -/
theorem le_weightedScore_iff (hf : 0 ≤ f ∧ f ≤ 1) (inc : Incident) (now : Time) (n : ℤ) :
    (n : ℚ) ≤ weightedScore .exact f inc now ↔
      n - severityPoints inc.severity - 1 / 2 ≤ restPoints f inc now := by
  have hround := le_roundHalf_iff (restPoints_mem hf inc now).1 (n - severityPoints inc.severity)
  rw [weightedScore_exact hf, ← sub_le_iff_le_add]
  push_cast at hround
  exact hround

theorem severityPoints_high : severityPoints (str "high") = 28 := by
  rw [severityPoints, if_neg (by decide +kernel), if_pos rfl]

theorem severityPoints_low : severityPoints (str "low") = 8 := by
  rw [severityPoints, if_neg (by decide +kernel), if_neg (by decide +kernel),
    if_neg (by decide +kernel), if_pos rfl]

theorem severityPoints_le {severity : GoString} (hcritical : severity ≠ str "critical")
    (hhigh : severity ≠ str "high") : severityPoints severity ≤ 20 := by
  rw [severityPoints, if_neg hcritical, if_neg hhigh]
  split_ifs <;> norm_num

/-- Only a heavy incident that is high gets eighty points without being critical. -/
theorem eighty_iff (hf : 0 ≤ f ∧ f ≤ 1) :
    80 ≤ weightedScore .exact f inc now ∧ inc.severity ≠ str "critical" ↔
      Heavy f inc now ∧ inc.severity = str "high" := by
  have hscore := le_weightedScore_iff hf inc now 80
  have hrest := (restPoints_mem hf inc now).2
  rw [Int.cast_ofNat] at hscore
  rw [hscore, Heavy]
  by_cases hhigh : inc.severity = str "high"
  · have hne : inc.severity ≠ str "critical" := by rw [hhigh]; decide +kernel
    rw [hhigh, severityPoints_high, ← hhigh]
    push_cast
    constructor
    · rintro ⟨hpoints, -⟩
      exact ⟨by linarith, rfl⟩
    · rintro ⟨hheavy, -⟩
      exact ⟨by linarith, hne⟩
  · constructor
    · rintro ⟨hpoints, hne⟩
      have hle : (severityPoints inc.severity : ℚ) ≤ 20 := by
        exact_mod_cast severityPoints_le hne hhigh
      linarith
    · rintro ⟨-, heq⟩
      exact absurd heq hhigh

/-- Only a heavy incident that is low gets sixty points. -/
theorem sixty_iff (hf : 0 ≤ f ∧ f ≤ 1) :
    60 ≤ weightedScore .exact f inc now ∧ inc.severity = str "low" ↔
      Heavy f inc now ∧ inc.severity = str "low" := by
  have hscore := le_weightedScore_iff hf inc now 60
  rw [Int.cast_ofNat] at hscore
  rw [hscore, Heavy]
  refine and_congr_left fun hlow => ?_
  rw [hlow, severityPoints_low]
  push_cast
  constructor
  · intro hpoints
    linarith
  · intro hheavy
    linarith

/-- **What is raised**: a heavy incident that is low or high, and nothing else. -/
theorem propagate_exact (hf : 0 ≤ f ∧ f ≤ 1) :
    propagate .exact inc.severity (weightedScore .exact f inc now) =
      if Heavy f inc now then raised inc.severity else none := by
  have h80 : Numbers.exact.le (Numbers.exact.const .c80) (weightedScore .exact f inc now) ∧
      inc.severity ≠ str "critical" ↔ Heavy f inc now ∧ inc.severity = str "high" := by
    rw [← eighty_iff hf]
    exact and_congr_left fun _ => decide_eq_true_iff
  have h60 : Numbers.exact.le (Numbers.exact.const .c60) (weightedScore .exact f inc now) ∧
      inc.severity = str "low" ↔ Heavy f inc now ∧ inc.severity = str "low" := by
    rw [← sixty_iff hf]
    exact and_congr_left fun _ => decide_eq_true_iff
  rw [propagate, raised, if_congr h80 rfl (if_congr h60 rfl rfl)]
  by_cases hheavy : Heavy f inc now
  · simp only [hheavy, true_and, if_true]
  · simp only [hheavy, false_and, if_false]

/-- The score of the incident is fed back into the severity. -/
def Feeds (f : ℚ) (inc : Incident) (now : Time) : Prop :=
  Heavy f inc now ∧ (raised inc.severity).isSome

instance (f : ℚ) (inc : Incident) (now : Time) : Decidable (Feeds f inc now) :=
  inferInstanceAs (Decidable (_ ∧ _))

end Exact

/-! ### Calculating again -/

section Again

open ScoreState

variable {factor : ℕ → ℚ} (hfactor : ∀ n, 0 ≤ factor n ∧ factor n ≤ 1)
  {alertKeys : GoString → List GoString} {now : Time} {s : ScoreState ℚ} {key : GoString}
  {d : ScoredIncident ℚ}

/-- What a calculation leaves of an incident, over exact numbers. -/
abbrev after (f : ℚ) (now : Time) (d : ScoredIncident ℚ) : ScoredIncident ℚ := scored .exact f now d

/-- The rest is worth the same in every calculation: it does not depend on score and severity. -/
theorem heavy_after {f : ℚ} : Heavy f (after f now d).doc now ↔ Heavy f d.doc now := Iff.rfl

theorem severity_after {f : ℚ} (hf : 0 ≤ f ∧ f ≤ 1) : (after f now d).doc.severity =
    (if Heavy f d.doc now then raised d.doc.severity else none).getD d.doc.severity := by
  rw [← propagate_exact hf]
  rfl

/-- The severity of an incident that does not feed back stays. -/
theorem severity_after_of_not_feeds {f : ℚ} (hf : 0 ≤ f ∧ f ≤ 1) (h : ¬Feeds f d.doc now) :
    (after f now d).doc.severity = d.doc.severity := by
  rw [severity_after hf]
  split_ifs with hheavy
  · rw [Option.not_isSome_iff_eq_none.mp fun hsome => h ⟨hheavy, hsome⟩]
    rfl
  · rfl

/-- And that of one that does is raised. -/
theorem severity_after_of_feeds {f : ℚ} (hf : 0 ≤ f ∧ f ≤ 1) (h : Feeds f d.doc now) :
    some (after f now d).doc.severity = raised d.doc.severity := by
  obtain ⟨severity, hraised⟩ := Option.isSome_iff_exists.mp h.2
  rw [severity_after hf, if_pos h.1, hraised]
  rfl

/-- **The next score is higher by what the severities are worth.** -/
theorem weightedScore_after {f : ℚ} (hf : 0 ≤ f ∧ f ≤ 1) :
    weightedScore .exact f (after f now d).doc now = weightedScore .exact f d.doc now +
      (severityPoints (after f now d).doc.severity - severityPoints d.doc.severity) := by
  have hrest : restPoints f (after f now d).doc now = restPoints f d.doc now := rfl
  rw [weightedScore_exact hf, weightedScore_exact hf, hrest]
  ring

/-- What the raised severity is worth more. -/
def gain (severity : GoString) : ℤ := if severity = str "high" then 12 else 20

theorem severityPoints_of_raised {severity severity' : GoString}
    (h : raised severity = some severity') :
    severityPoints severity' = severityPoints severity + gain severity := by
  rw [raised] at h
  split_ifs at h with hhigh hlow
  · obtain rfl := Option.some.inj h
    rw [gain, if_pos hhigh, hhigh, severityPoints_high]
    exact if_pos rfl
  · obtain rfl := Option.some.inj h
    rw [gain, if_neg hhigh, hlow, severityPoints_low, severityPoints_high]
    rfl

theorem gain_pos (severity : GoString) : 0 < gain severity := by
  rw [gain]
  split_ifs <;> norm_num

/-- Behind critical there is nothing. -/
theorem raised_of_raised {severity severity' severity'' : GoString}
    (h : raised severity = some severity') (h' : raised severity' = some severity'') :
    severity'' = str "critical" := by
  rw [raised] at h
  split_ifs at h
  · obtain rfl := Option.some.inj h
    have hnone : raised (str "critical") = none := by decide +kernel
    cases hnone.symm.trans h'
  · obtain rfl := Option.some.inj h
    exact (Option.some.inj h').symm

/-- Calculating again at one instant gives the same score, and leaves the severity alone. -/
def Stable (factor : ℕ → ℚ) (alertKeys : GoString → List GoString) (now : Time) (key : GoString)
    (s : ScoreState ℚ) : Prop :=
  let first := recalc .exact factor alertKeys now s key
  let second := recalc .exact factor alertKeys now first.1 key
  second.2.map (·.score) = first.2.map (·.score) ∧
    (second.1.getByID key).map (·.doc.severity) = (first.1.getByID key).map (·.doc.severity)

include hfactor in
/-- **A score is stable exactly if it is not fed back.** -/
theorem stable_iff : Stable factor alertKeys now key s ↔
    ∀ d, s.getByID key = some d → ¬Feeds (factor (alertKeys key).length) d.doc now := by
  have hf := hfactor (alertKeys key).length
  rw [Stable]
  cases hget : s.getByID key with
  | none =>
    obtain ⟨hfirst, herr⟩ := recalc_of_none .exact factor alertKeys now hget
    obtain ⟨hsecond, herr'⟩ := recalc_of_none .exact factor alertKeys now hfirst
    simp only [herr, herr', hfirst, hsecond]
    exact ⟨nofun, fun _ => ⟨trivial, trivial⟩⟩
  | some d =>
    obtain ⟨hfirst, hscore⟩ := recalc_of_some .exact factor alertKeys now hget
    obtain ⟨hsecond, hscore'⟩ := recalc_of_some .exact factor alertKeys now hfirst
    simp only [hscore, hscore', hfirst, hsecond]
    constructor
    · rintro ⟨heq, -⟩ e he hfeeds
      obtain rfl := Option.some.inj he
      -- the scores differ by what the severity is raised
      have hgain := severityPoints_of_raised (severity_after_of_feeds hf hfeeds).symm
      have hsame := Except.ok.inj heq
      rw [weightedScore_after hf, hgain, Int.cast_add, add_sub_cancel_left] at hsame
      have hzero : ((gain d.doc.severity : ℤ) : ℚ) = 0 := by linarith
      exact absurd (by exact_mod_cast hzero) (gain_pos d.doc.severity).ne'
    · intro h
      have hseverity := severity_after_of_not_feeds hf (h d rfl)
      have hagain : ¬Feeds (factor (alertKeys key).length)
          (after (factor (alertKeys key).length) now d).doc now := by
        rw [Feeds, heavy_after, hseverity]
        exact h d rfl
      refine ⟨?_, congrArg some (severity_after_of_not_feeds hf hagain)⟩
      rw [weightedScore_after hf, hseverity, sub_self, add_zero]

/-- What feeds back after a calculation did so before. -/
theorem feeds_of_feeds_after {f : ℚ} (hf : 0 ≤ f ∧ f ≤ 1) (h : Feeds f (after f now d).doc now) :
    Feeds f d.doc now := by
  by_contra hnot
  refine hnot ⟨heavy_after.mp h.1, ?_⟩
  rw [← severity_after_of_not_feeds hf hnot]
  exact h.2

/-- **After two calculations nothing is fed back**: what has been raised twice is critical. -/
theorem not_feeds_after_after {f : ℚ} (hf : 0 ≤ f ∧ f ≤ 1) (d : ScoredIncident ℚ) :
    ¬Feeds f (after f now (after f now d)).doc now := by
  intro h
  have honce := feeds_of_feeds_after hf h
  have hcritical := raised_of_raised
    (severity_after_of_feeds hf (feeds_of_feeds_after hf honce)).symm
    (severity_after_of_feeds hf honce).symm
  have hsome := h.2
  rw [hcritical] at hsome
  exact absurd hsome (by decide +kernel)

/-- So many calculations, one after the other, at one instant. -/
def calculations (factor : ℕ → ℚ) (alertKeys : GoString → List GoString) (now : Time)
    (key : GoString) (n : ℕ) (s : ScoreState ℚ) : ScoreState ℚ :=
  (fun s => (recalc .exact factor alertKeys now s key).1)^[n] s

/-- **After so many calculations** the incident is what they leave of it. -/
theorem getByID_calculations (h : s.getByID key = some d) (n : ℕ) :
    (calculations factor alertKeys now key n s).getByID key =
      some ((after (factor (alertKeys key).length) now)^[n] d) := by
  induction n with
  | zero => exact h
  | succ n ih =>
    rw [calculations, Function.iterate_succ_apply', Function.iterate_succ_apply']
    exact (recalc_of_some .exact factor alertKeys now ih).1

theorem getByID_calculations_none (h : s.getByID key = none) (n : ℕ) :
    (calculations factor alertKeys now key n s).getByID key = none := by
  induction n with
  | zero => exact h
  | succ n ih =>
    rw [calculations, Function.iterate_succ_apply']
    exact (recalc_of_none .exact factor alertKeys now ih).1

include hfactor in
/-- **From the third calculation on a score is stable.** -/
theorem stable_calculations (n : ℕ) :
    Stable factor alertKeys now key (calculations factor alertKeys now key (n + 2) s) := by
  rw [stable_iff hfactor]
  intro e he
  cases hget : s.getByID key with
  | none => cases (getByID_calculations_none hget (n + 2)).symm.trans he
  | some d =>
    obtain rfl := Option.some.inj ((getByID_calculations hget (n + 2)).symm.trans he)
    rw [Function.iterate_succ_apply', Function.iterate_succ_apply']
    exact not_feeds_after_after (hfactor _) _

include hfactor in
/-- **A score is stable exactly if no severity is raised for it.** Where one is raised, the next score
is higher by what the severities are worth, and from the third calculation on there is nothing to
raise. -/
theorem stable_iff_and_raised :
    (Stable factor alertKeys now key s ↔
      ∀ d, s.getByID key = some d → ¬Feeds (factor (alertKeys key).length) d.doc now) ∧
    (∀ d, s.getByID key = some d → Feeds (factor (alertKeys key).length) d.doc now →
      let first := recalc .exact factor alertKeys now s key
      let second := recalc .exact factor alertKeys now first.1 key
      (first.1.getByID key).map (·.doc.severity) = raised d.doc.severity ∧
        second.2.map (·.score) = (first.2.map (·.score)).map (· + (gain d.doc.severity : ℚ))) ∧
    ∀ n, Stable factor alertKeys now key (calculations factor alertKeys now key (n + 2) s) := by
  have hf := hfactor (alertKeys key).length
  refine ⟨stable_iff hfactor, fun d hget hfeeds => ?_, stable_calculations hfactor⟩
  obtain ⟨hfirst, hscore⟩ := recalc_of_some .exact factor alertKeys now hget
  obtain ⟨-, hscore'⟩ := recalc_of_some .exact factor alertKeys now hfirst
  have hseverity := severity_after_of_feeds hf hfeeds
  refine ⟨?_, ?_⟩
  · rw [hfirst]
    exact hseverity
  · have hgain := severityPoints_of_raised hseverity.symm
    rw [hscore', hscore, weightedScore_after hf, hgain, Int.cast_add, add_sub_cancel_left]
    rfl

end Again

/-! ### An incident that is raised -/

/-- A high incident of twenty alerts, with five tactics, that has been open for four days. -/
def heavyState : ScoreState ℚ where
  docs := [⟨{
    key := str "1"
    incidentID := str "INC-1"
    severity := str "high"
    mitreTactics := [str "TA0001", str "TA0002", str "TA0003", str "TA0004", str "TA0005"]
    firstSeen := 0 }, 0⟩]

/-- The alerts of the incident. -/
def heavyAlerts (_ : GoString) : List GoString := List.replicate 20 (str "ALT-1")

/-- **The score of the incident is 81, and calculated again at the same instant it is 93.** -/
theorem not_stable :
    let first := ScoreState.recalc .exact (fun _ => 1) heavyAlerts (96 * hour) heavyState (str "1")
    let second := ScoreState.recalc .exact (fun _ => 1) heavyAlerts (96 * hour) first.1 (str "1")
    first.2.map (·.score) = .ok 81 ∧ second.2.map (·.score) = .ok 93 ∧
      ¬Stable (fun _ => 1) heavyAlerts (96 * hour) (str "1") heavyState := by
  have hfirst : (ScoreState.recalc .exact (fun _ => 1) heavyAlerts (96 * hour) heavyState
      (str "1")).2.map (·.score) = .ok 81 := by decide +kernel
  have hsecond : (ScoreState.recalc .exact (fun _ => 1) heavyAlerts (96 * hour)
      (ScoreState.recalc .exact (fun _ => 1) heavyAlerts (96 * hour) heavyState (str "1")).1
      (str "1")).2.map (·.score) = .ok 93 := by decide +kernel
  refine ⟨hfirst, hsecond, ?_⟩
  rintro ⟨hscore, -⟩
  rw [hfirst, hsecond] at hscore
  exact absurd hscore (by decide)

/-- What is said of all incidents, of this one. -/
theorem stable_iff_and_raised_heavy :
    (Stable (fun _ => 1) heavyAlerts (96 * hour) (str "1") heavyState ↔
      ∀ d, heavyState.getByID (str "1") = some d → ¬Feeds 1 d.doc (96 * hour)) ∧
    ∀ n, Stable (fun _ => 1) heavyAlerts (96 * hour) (str "1")
      (calculations (fun _ => 1) heavyAlerts (96 * hour) (str "1") (n + 2) heavyState) := by
  obtain ⟨hiff, -, hrun⟩ := @stable_iff_and_raised (fun _ => 1) (fun _ => ⟨zero_le_one, le_rfl⟩)
    heavyAlerts (96 * hour) heavyState (str "1")
  exact ⟨hiff, hrun⟩

end Incidents

end Xsiam
