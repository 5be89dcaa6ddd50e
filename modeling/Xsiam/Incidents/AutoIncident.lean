import Mathlib.Order.Bounds.Basic
import Xsiam.Incidents.Causality

/-!
# How severe an auto incident is

`buildAutoIncident` of `internal/domain/incident/causality_service.go` takes the severity of an
incident from its alerts: from `low` on, whatever is greater. What it compares are the texts of the
severities, and the order of texts is that of the alphabet: `critical`, `high`, `low`, `medium`
(`Xsiam.Incidents.Severity.text_lt_text_iff`). So an incident is `medium` or `low`
(`Xsiam.Incidents.buildAutoIncident_severity`), and a critical or high alert leaves no trace in it.

The incident is of no tenant, and it has the IDs of its alerts as they come. So it is what its alerts
make it exactly where none of them is critical or high, none is of a tenant, and no ID is there twice
(`Xsiam.Incidents.summarises_iff`). The last is so of all alerts that are correlated
(`Xsiam.Incidents.CausalityService.nodup_alertIDs_auto`).
-/

namespace Xsiam

namespace Incidents

open Go Repository CausalityService

/-! ### Severities -/

/-- `model.Severity` -/
inductive Severity where
  | low
  | medium
  | high
  | critical
deriving DecidableEq

namespace Severity

/-- The text of a severity. -/
def text : Severity → GoString
  | low => str "low"
  | medium => str "medium"
  | high => str "high"
  | critical => str "critical"

/-- How severe a severity is. -/
def rank : Severity → ℕ
  | low => 0
  | medium => 1
  | high => 2
  | critical => 3

theorem rank_injective : Function.Injective rank := by
  intro s t
  cases s <;> cases t <;> simp [rank]

instance : LinearOrder Severity := LinearOrder.lift' rank rank_injective

theorem le_iff_rank {s t : Severity} : s ≤ t ↔ s.rank ≤ t.rank := Iff.rfl

/-- Where the text of a severity is in the alphabet. -/
def place : Severity → ℕ
  | critical => 0
  | high => 1
  | low => 2
  | medium => 3

theorem text_injective : Function.Injective text := by
  intro s t
  cases s <;> cases t <;> decide +kernel

/-- **Texts are in the order of the alphabet.** -/
theorem text_lt_text_iff (s t : Severity) : s.text < t.text ↔ s.place < t.place := by
  cases s <;> cases t <;> decide +kernel

theorem le_medium_iff {s : Severity} : s ≤ medium ↔ s ≠ critical ∧ s ≠ high := by
  rw [le_iff_rank]
  cases s <;> simp [rank]

theorem le_medium_iff_place {s : Severity} : s ≤ medium ↔ low.place ≤ s.place := by
  rw [le_iff_rank]
  cases s <;> simp [rank, place]

end Severity

/-! ### The severity of the incident -/

/-- The alerts have severities that there are. -/
def KnownSeverities (alerts : List Alert) : Prop := ∀ a ∈ alerts, ∃ s : Severity, a.severity = s.text

/-- The severities of some alerts. -/
def severities (alerts : List Alert) : Set Severity := {s | ∃ a ∈ alerts, a.severity = s.text}

/-- What the loop of `buildAutoIncident` makes of an alert. -/
def worse (sev : GoString) (a : Alert) : GoString := if sev < a.severity then a.severity else sev

/-- **One step**: the later of the two in the alphabet. -/
theorem worse_text {a : Alert} {s t : Severity} (ha : a.severity = t.text) :
    worse s.text a = (if s.place < t.place then t else s).text := by
  rw [worse, ha, if_congr (Severity.text_lt_text_iff s t) rfl rfl]
  split_ifs
  · rfl
  · rfl

/-- **The loop**: it ends with the last in the alphabet of the severity it starts from and those of
the alerts. -/
theorem foldl_worse {alerts : List Alert} (hknown : KnownSeverities alerts) (s : Severity) :
    ∃ r : Severity, alerts.foldl worse s.text = r.text ∧ (r = s ∨ r ∈ severities alerts) ∧
      s.place ≤ r.place ∧ ∀ t ∈ severities alerts, t.place ≤ r.place := by
  induction alerts generalizing s with
  | nil => exact ⟨s, rfl, .inl rfl, le_rfl, fun t ⟨a, ha, _⟩ => absurd ha List.not_mem_nil⟩
  | cons a alerts ih =>
    obtain ⟨t, ht⟩ := hknown a List.mem_cons_self
    obtain ⟨r, hr, hfrom, hstart, hall⟩ := ih (fun b hb => hknown b (List.mem_cons_of_mem a hb))
      (if s.place < t.place then t else s)
    have hstep : s.place ≤ (if s.place < t.place then t else s).place ∧
        t.place ≤ (if s.place < t.place then t else s).place := by
      split_ifs with hlt
      · exact ⟨hlt.le, le_rfl⟩
      · exact ⟨le_rfl, not_lt.mp hlt⟩
    refine ⟨r, ?_, ?_, hstep.1.trans hstart, ?_⟩
    · rw [List.foldl_cons, worse_text ht, hr]
    · rcases hfrom with rfl | ⟨b, hb, hbr⟩
      · split_ifs
        · exact .inr ⟨a, List.mem_cons_self, ht⟩
        · exact .inl rfl
      · exact .inr ⟨b, List.mem_cons_of_mem a hb, hbr⟩
    · rintro u ⟨b, hb, hbu⟩
      rcases List.mem_cons.mp hb with rfl | hb
      · obtain rfl := Severity.text_injective (ht.symm.trans hbu)
        exact hstep.2.trans hstart
      · exact hall u ⟨b, hb, hbu⟩

/-- **The severity of an auto incident** is `medium` if an alert is, and otherwise `low`, whatever
else they are. -/
theorem buildAutoIncident_severity (call : Call) {alerts : List Alert} (hknown : KnownSeverities alerts) :
    ∃ r : Severity, (buildAutoIncident call alerts).severity = r.text ∧ r ≤ .medium ∧
      (r = .medium ↔ .medium ∈ severities alerts) := by
  obtain ⟨r, hr, hfrom, hstart, hall⟩ := foldl_worse hknown .low
  refine ⟨r, hr, Severity.le_medium_iff_place.mpr hstart, ?_, fun hmem => ?_⟩
  · rintro rfl
    exact hfrom.resolve_left (by decide)
  · have hplace := hall _ hmem
    cases r
    case medium => rfl
    all_goals exact absurd hplace (by decide)

/-! ### What the incident says of its alerts -/

/-- An incident is what its alerts make it. -/
structure Summarises (inc : Incident) (alerts : List Alert) : Prop where
  severity : ∃ s : Severity, inc.severity = s.text ∧ IsGreatest (severities alerts) s
  tenant : ∀ a ∈ alerts, inc.tenantID = a.tenantID
  nodup : inc.alertIDs.Nodup
  mem_alertIDs : ∀ id, id ∈ inc.alertIDs ↔ ∃ a ∈ alerts, a.alertID = id
  count : inc.alertCount = inc.alertIDs.length

/-- An auto incident is as severe as its worst alert exactly if none is critical or high. -/
theorem greatest_iff (call : Call) {alerts : List Alert} (hne : alerts ≠ [])
    (hknown : KnownSeverities alerts) :
    (∃ s : Severity, (buildAutoIncident call alerts).severity = s.text ∧
      IsGreatest (severities alerts) s) ↔
      ∀ s ∈ severities alerts, s ≠ .critical ∧ s ≠ .high := by
  obtain ⟨r, hr, hle, hmedium⟩ := buildAutoIncident_severity call hknown
  constructor
  · rintro ⟨s, hs, hgreatest⟩ t ht
    obtain rfl := Severity.text_injective (hs.symm.trans hr)
    exact Severity.le_medium_iff.mp ((hgreatest.2 ht).trans hle)
  · intro h
    have hall : ∀ t ∈ severities alerts, t ≤ .medium := fun t ht =>
      Severity.le_medium_iff.mpr (h t ht)
    refine ⟨r, hr, ?_⟩
    by_cases hr' : r = .medium
    · exact ⟨hr' ▸ hmedium.mp hr', fun t ht => hr' ▸ hall t ht⟩
    · -- no alert is medium, so all of them are low, and there is one
      have hlow : ∀ t ∈ severities alerts, t = .low := by
        intro t ht
        have hnot : t ≠ .medium := fun heq => hr' (hmedium.mpr (heq ▸ ht))
        cases t with
        | low => rfl
        | medium => exact absurd rfl hnot
        | high => exact absurd rfl (h _ ht).2
        | critical => exact absurd rfl (h _ ht).1
      have hrlow : r = .low := by
        have hplace := Severity.le_medium_iff_place.mp hle
        cases r with
        | low => rfl
        | medium => exact absurd rfl hr'
        | high => exact absurd hplace (by decide)
        | critical => exact absurd hplace (by decide)
      obtain ⟨a, as, rfl⟩ := List.exists_cons_of_ne_nil hne
      obtain ⟨t, ht⟩ := hknown a List.mem_cons_self
      have hmem : t ∈ severities (a :: as) := ⟨a, List.mem_cons_self, ht⟩
      rw [hrlow]
      exact ⟨hlow t hmem ▸ hmem, fun t ht => (hlow t ht).le⟩

/-- **An auto incident is what its alerts make it exactly if none of them is critical or high, none
is of a tenant, and no two have one ID.** -/
theorem summarises_iff (call : Call) {alerts : List Alert} (hne : alerts ≠ [])
    (hknown : KnownSeverities alerts) :
    Summarises (buildAutoIncident call alerts) alerts ↔
      (∀ a ∈ alerts, a.severity ≠ Severity.critical.text ∧ a.severity ≠ Severity.high.text) ∧
        (∀ a ∈ alerts, a.tenantID = []) ∧ (alerts.map (·.alertID)).Nodup := by
  have hsev : (∀ s ∈ severities alerts, s ≠ .critical ∧ s ≠ .high) ↔
      ∀ a ∈ alerts, a.severity ≠ Severity.critical.text ∧ a.severity ≠ Severity.high.text := by
    constructor
    · intro h a ha
      exact ⟨fun heq => (h _ ⟨a, ha, heq⟩).1 rfl, fun heq => (h _ ⟨a, ha, heq⟩).2 rfl⟩
    · rintro h s ⟨a, ha, hs⟩
      exact ⟨fun heq => (h a ha).1 (heq ▸ hs), fun heq => (h a ha).2 (heq ▸ hs)⟩
  rw [← hsev, ← greatest_iff call hne hknown]
  constructor
  · intro h
    exact ⟨h.severity, fun a ha => (h.tenant a ha).symm, h.nodup⟩
  · rintro ⟨hseverity, htenant, hnodup⟩
    exact {
      severity := hseverity
      tenant := fun a ha => (htenant a ha).symm
      nodup := hnodup
      mem_alertIDs := fun id => List.mem_map
      count := by rw [buildAutoIncident, List.length_map] }

/-- No ID is there twice in the incident of alerts that are correlated. -/
theorem CausalityService.nodup_alertIDs_auto (svc : CausalityService) (call : Call)
    (alerts : AlertDocs) (root : Alert) :
    (buildAutoIncident call (svc.findCorrelatedAlerts alerts root)).alertIDs.Nodup :=
  svc.nodup_findCorrelatedAlerts alerts root

/-! ### Two critical alerts -/

/-- A critical alert of a tenant. -/
def criticalAlert (key alertID : String) : Alert :=
  { sampleAlert key alertID "t1" with severity := Severity.critical.text }

/-- **The incident of two critical alerts is of low severity, and of no tenant.** -/
theorem not_summarises :
    let alerts := [criticalAlert "1" "ALT-1", criticalAlert "2" "ALT-2"]
    (buildAutoIncident sampleCall alerts).severity = Severity.low.text ∧
      (buildAutoIncident sampleCall alerts).tenantID ≠ str "t1" ∧
      ¬Summarises (buildAutoIncident sampleCall alerts) alerts := by
  refine ⟨by decide +kernel, by decide +kernel, ?_⟩
  intro h
  have htenant := h.tenant _ List.mem_cons_self
  exact absurd htenant (by decide +kernel)

/-- An alert of no tenant. -/
def looseAlert (key alertID : String) (s : Severity) : Alert :=
  { key := str key, alertID := str alertID, severity := s.text }

/-- The incident of a low and a medium alert. -/
theorem summarises_loose :
    let alerts := [looseAlert "1" "ALT-1" .low, looseAlert "2" "ALT-2" .medium]
    Summarises (buildAutoIncident sampleCall alerts) alerts := by
  refine (summarises_iff sampleCall (List.cons_ne_nil _ _) fun a ha => ?_).mpr
    ⟨by decide +kernel, by decide +kernel, by decide +kernel⟩
  obtain rfl | ha := List.mem_cons.mp ha
  · exact ⟨.low, rfl⟩
  · exact ⟨.medium, by rw [List.mem_singleton.mp ha]; rfl⟩

end Incidents

end Xsiam
