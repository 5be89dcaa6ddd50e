import Mathlib.Data.Rat.Cast.Order
import Mathlib.Tactic.Linarith
import Xsiam.Incidents.Repository

/-!
# Two ways to miss a deadline

`GetSLAStats` of `internal/domain/incident/repository.go` counts the incidents of a tenant that are
past their deadline, in a query, and `SLARecalc` of `handler.go` says of one incident whether it is.

The deadline in the query is what `DATE_ADD` gives, which is a text, and it is compared with
`DATE_NOW()`, which is a number; numbers come before texts (`Xsiam.Incidents.AqlScalar.lt`). So no
incident is ever past its deadline there (`Xsiam.Incidents.getSLAStats_breached`), all are compliant,
and one that is overdue is at risk for good. And the statuses that the query passes over do not have
`closed` among them. So the two agree exactly on the incidents that are not open and overdue, and not
closed and at risk (`Xsiam.Incidents.slasAgree_iff`).
-/

namespace Xsiam

namespace Incidents

open Go Repository

/-! ### The comparison -/

/-- A value of a query that has no parts. -/
inductive AqlScalar where
  | null
  | bool (b : Bool)
  | number (q : ℚ)
  | string (s : GoString)
deriving DecidableEq

namespace AqlScalar

/-- Where the type of a value is in the order of types. -/
def typeRank : AqlScalar → ℕ
  | null => 0
  | bool _ => 1
  | number _ => 2
  | string _ => 3

/-- The operator `<`: values of different types are ordered by their types. -/
def lt : AqlScalar → AqlScalar → Bool
  | bool a, bool b => !a && b
  | number p, number q => p < q
  | string s, string t => s < t
  | v, w => v.typeRank < w.typeRank

/-- **A text comes behind every number.** -/
theorem lt_string_number (s : GoString) (q : ℚ) : (string s).lt (number q) = false := rfl

end AqlScalar

/-! ### The query -/

/-- The functions of the database on dates: `DATE_ADD` in hours gives a date as a text, and
`DATE_DIFF` in hours counts the hours from an instant to such a date. -/
structure AqlDates where
  add : Time → ℕ → GoString
  diff : Time → GoString → ℤ

/-- `DATE_NOW()`, in milliseconds. -/
def dateNow (now : Time) : AqlScalar := .number (now / 10 ^ 6 : ℤ)

/-- `sla_hours` -/
def slaHours (inc : Incident) : ℕ :=
  if inc.priority = str "P1" ∨ inc.severity = str "critical" then 4
  else if inc.priority = str "P2" ∨ inc.severity = str "high" then 8
  else if inc.priority = str "P3" ∨ inc.severity = str "medium" then 24 else 72

/-- The statuses that the query passes over. -/
def slaStatuses : List GoString := [str "resolved", str "auto_closed", str "false_positive"]

/-- What the query makes of an incident. -/
structure SlaRow where
  slaHours : ℕ
  breached : Bool
  atRisk : Bool
deriving DecidableEq

variable (dates : AqlDates) (now : Time)

def slaRow (inc : Incident) : SlaRow :=
  let hours := slaHours inc
  let deadline := dates.add inc.createdAt hours
  let breached := inc.status.text ∉ slaStatuses ∧ (AqlScalar.string deadline).lt (dateNow now)
  { slaHours := hours
    breached
    atRisk := ¬breached ∧ inc.status.text ∉ slaStatuses ∧ dates.diff now deadline < 2 }

/-- `SLAStats`, with the rate as an exact number. -/
structure SLAStats where
  total : ℕ
  p1Breached : ℕ
  p2Breached : ℕ
  p1AtRisk : ℕ
  p2AtRisk : ℕ
  complianceRate : ℚ
deriving DecidableEq

/-- `GetSLAStats`, without what it fails with. -/
def getSLAStats (docs : List Incident) (tenantID : GoString) : SLAStats :=
  let rows := (docs.filter fun inc => inc.tenantID = tenantID).map (slaRow dates now)
  let compliant := rows.countP fun row => !row.breached
  { total := rows.length
    p1Breached := rows.countP fun row => row.slaHours = 4 && row.breached
    p2Breached := rows.countP fun row => row.slaHours = 8 && row.breached
    p1AtRisk := rows.countP fun row => row.slaHours = 4 && row.atRisk
    p2AtRisk := rows.countP fun row => row.slaHours = 8 && row.atRisk
    complianceRate := if 0 < rows.length then (compliant : ℚ) / rows.length else 0 }

/-! ### The handler -/

/-- The limits of `SLARecalc`. A severity that is not among them has the last. -/
def slaLimit (severity : GoString) : ℕ :=
  if severity = str "critical" then 4
  else if severity = str "high" then 8
  else if severity = str "medium" then 24 else 72

/-- What `SLARecalc` answers, in exact numbers. -/
structure SlaReport where
  incidentKey : GoString
  breached : Bool
  elapsedHours : ℚ
  limitHours : ℚ
  remainingHours : ℚ
  pctUsed : ℚ

def slaReport (inc : Incident) : SlaReport :=
  let limit : ℚ := slaLimit inc.severity
  let elapsed : ℚ := ((now - inc.createdAt : ℤ) : ℚ) / (hour : ℤ)
  let pctUsed := elapsed / limit * 100
  { incidentKey := inc.key
    breached := limit < elapsed
    elapsedHours := elapsed
    limitHours := limit
    remainingHours := limit - elapsed
    pctUsed := if 100 < pctUsed then 100 else pctUsed }

/-- `SLARecalc`. Where there is no incident the answer is that it was not found. -/
def slaRecalc (docs : List Incident) (key : GoString) : Option SlaReport :=
  (getByID docs key).map (slaReport now)

/-! ### What is counted -/

/-- An incident is counted as past its deadline, and not as compliant. -/
def CountedBreached (inc : Incident) : Prop := (slaRow dates now inc).breached = true

/-- An incident is counted as at risk. -/
def CountedAtRisk (inc : Incident) : Prop :=
  (slaRow dates now inc).atRisk = true ∧ (slaHours inc = 4 ∨ slaHours inc = 8)

/-- **No incident is ever past its deadline**, for the query. -/
theorem not_countedBreached (inc : Incident) : ¬CountedBreached dates now inc := by
  rw [CountedBreached, slaRow]
  simp only [dateNow, AqlScalar.lt_string_number]
  simp

/-- What is at risk is what is not passed over and has less than two hours left, or none. -/
theorem atRisk_iff (inc : Incident) : (slaRow dates now inc).atRisk = true ↔
    inc.status.text ∉ slaStatuses ∧ dates.diff now (dates.add inc.createdAt (slaHours inc)) < 2 := by
  have hnot : ¬((slaRow dates now inc).breached = true) := not_countedBreached dates now inc
  rw [slaRow] at hnot ⊢
  simp only [decide_eq_true_eq] at hnot ⊢
  exact and_iff_right hnot

/-- **The counts**: nothing is breached, and everything is compliant. -/
theorem getSLAStats_breached (docs : List Incident) (tenantID : GoString) :
    (getSLAStats dates now docs tenantID).p1Breached = 0 ∧
      (getSLAStats dates now docs tenantID).p2Breached = 0 ∧
      ((getSLAStats dates now docs tenantID).total ≠ 0 →
        (getSLAStats dates now docs tenantID).complianceRate = 1) := by
  have hnone : ∀ row ∈ (docs.filter fun inc => inc.tenantID = tenantID).map (slaRow dates now),
      row.breached = false := by
    intro row hrow
    obtain ⟨inc, -, rfl⟩ := List.mem_map.mp hrow
    exact Bool.eq_false_iff.mpr (not_countedBreached dates now inc)
  refine ⟨List.countP_eq_zero.mpr fun row hrow => ?_, List.countP_eq_zero.mpr fun row hrow => ?_, ?_⟩
  · simp [hnone row hrow]
  · simp [hnone row hrow]
  · intro htotal
    have hall : ((docs.filter fun inc => inc.tenantID = tenantID).map (slaRow dates now)).countP
        (fun row => !row.breached) =
          ((docs.filter fun inc => inc.tenantID = tenantID).map (slaRow dates now)).length :=
      List.countP_eq_length.mpr fun row hrow => by rw [hnone row hrow]; rfl
    have hpos := Nat.pos_of_ne_zero htotal
    rw [getSLAStats] at hpos ⊢
    dsimp only at hpos ⊢
    rw [if_pos hpos, hall, div_self (by exact_mod_cast hpos.ne')]

/-! ### Where the two agree -/

/-- The final statuses. -/
def finalStatuses : List GoString :=
  [str "resolved", str "closed", str "auto_closed", str "false_positive"]

/-- An incident is open. -/
def Open (inc : Incident) : Prop := inc.status.text ∉ finalStatuses

instance (inc : Incident) : Decidable (Open inc) := inferInstanceAs (Decidable (_ ∉ _))

/-- An incident is older than its severity allows. -/
def Overdue (inc : Incident) : Prop := (slaLimit inc.severity : ℤ) * hour < now - inc.createdAt

instance (inc : Incident) : Decidable (Overdue now inc) := inferInstanceAs (Decidable (_ < _))

/-- **That is what `SLARecalc` reports.** -/
theorem slaReport_breached_iff (inc : Incident) :
    (slaReport now inc).breached = true ↔ Overdue now inc := by
  have hhour : (0 : ℚ) < (hour : ℤ) := by
    rw [hour]
    norm_num
  rw [slaReport, decide_eq_true_eq, lt_div_iff₀ hhour, Overdue]
  exact_mod_cast Iff.rfl

/-- The two ways agree on an incident, and no final incident is counted. -/
structure SlasAgree (inc : Incident) : Prop where
  breached : CountedBreached dates now inc ↔ Open inc ∧ (slaReport now inc).breached = true
  exclusive : ¬(CountedAtRisk dates now inc ∧ CountedBreached dates now inc)
  final : ¬Open inc → ¬CountedBreached dates now inc ∧ ¬CountedAtRisk dates now inc

/-- Of the final statuses the query passes over all but one. -/
theorem final_iff {status : GoString} :
    status ∈ finalStatuses ↔ status = str "closed" ∨ status ∈ slaStatuses := by
  simp only [finalStatuses, slaStatuses, List.mem_cons, List.not_mem_nil, or_false]
  tauto

theorem closed_notMem_slaStatuses : str "closed" ∉ slaStatuses := by decide +kernel

/-- **The two agree exactly on an incident that is not open and overdue, and not closed and within two
hours of a deadline of four or eight hours, or past it.** -/
theorem slasAgree_iff (dates : AqlDates) (now : Time) (inc : Incident) :
    SlasAgree dates now inc ↔ ¬(Open inc ∧ Overdue now inc) ∧
      ¬(inc.status.text = str "closed" ∧ (slaHours inc = 4 ∨ slaHours inc = 8) ∧
        dates.diff now (dates.add inc.createdAt (slaHours inc)) < 2) := by
  have hnever := not_countedBreached dates now inc
  constructor
  · intro h
    refine ⟨?_, ?_⟩
    · rintro ⟨hopen, hoverdue⟩
      exact hnever (h.breached.mpr ⟨hopen, (slaReport_breached_iff now inc).mpr hoverdue⟩)
    · rintro ⟨hclosed, hhours, hdiff⟩
      -- it is final, and the query counts it as at risk
      have hfinal : ¬Open inc := not_not.mpr (final_iff.mpr (.inl hclosed))
      refine (h.final hfinal).2 ⟨(atRisk_iff dates now inc).mpr ⟨?_, hdiff⟩, hhours⟩
      rw [hclosed]
      exact closed_notMem_slaStatuses
  · rintro ⟨hopen, hclosed⟩
    refine ⟨iff_of_false hnever ?_, fun hboth => hnever hboth.2, fun hfinal => ⟨hnever, ?_⟩⟩
    · rintro ⟨hopen', hbreached⟩
      exact hopen ⟨hopen', (slaReport_breached_iff now inc).mp hbreached⟩
    · rintro ⟨hrisk, hhours⟩
      -- the one final status that the query does not know is `closed`
      obtain ⟨hnot, hdiff⟩ := (atRisk_iff dates now inc).mp hrisk
      have hstatus := (final_iff.mp (not_not.mp hfinal)).resolve_right hnot
      exact hclosed ⟨hstatus, hhours, hdiff⟩

/-! ### An overdue incident -/

/-- The dates of an incident that was made when time began, five hours later. -/
def fiveHours : AqlDates where
  add _ _ := str "1970-01-01T04:00:00.000Z"
  diff _ _ := -1

/-- A critical incident. -/
def criticalIncident (status : Status) : Incident :=
  { key := str "1", incidentID := str "INC-1", tenantID := str "t1", severity := str "critical",
    status, createdAt := 0 }

/-- **A critical incident that is open for five hours** is overdue for the handler, and for the query
it is compliant and at risk. Once it is closed it still is at risk. -/
theorem not_slasAgree :
    (slaReport (5 * hour) (criticalIncident .new)).breached = true ∧
    getSLAStats fiveHours (5 * hour) [criticalIncident .new] (str "t1") = ⟨1, 0, 0, 1, 0, 1⟩ ∧
    getSLAStats fiveHours (5 * hour) [criticalIncident .closed] (str "t1") = ⟨1, 0, 0, 1, 0, 1⟩ ∧
    ¬SlasAgree fiveHours (5 * hour) (criticalIncident .new) ∧
    ¬SlasAgree fiveHours (5 * hour) (criticalIncident .closed) := by
  have hbreached : (slaReport (5 * hour) (criticalIncident .new)).breached = true := by
    decide +kernel
  refine ⟨hbreached, by decide +kernel, by decide +kernel, fun h => ?_, fun h => ?_⟩
  · exact not_countedBreached _ _ _ (h.breached.mpr ⟨by decide +kernel, hbreached⟩)
  · refine (h.final (by decide +kernel)).2 ⟨by decide +kernel, .inl (by decide +kernel)⟩

end Incidents

end Xsiam
