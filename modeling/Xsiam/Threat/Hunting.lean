import Xsiam.Etl.ThreatMatch
import Xsiam.Go.Case

/-!
# Hunting for indicators

`IocService.Hunt` of `internal/domain/threat/ioc_service.go`, and `FindByValues` of the repository. The
query compares the lower-case value of an indicator with the values that are looked for, as they come:
the repository says that it makes them lower case, and copies them. So an indicator is found if its
lower-case form is among the values (`Xsiam.Threat.mem_hunt`), and it is so however a value is spelled
only if the value has one spelling, as an address of digits has. And `Hunt` leaves out the empty value
but no other blank one.

So hunting is exact, and the same for all spellings, exactly where what is found has one spelling and
no blank value is one of an indicator (`Xsiam.Threat.caseless_iff`).
-/

namespace Xsiam

namespace Threat

open Go Etl

/-! ### The query -/

/-- `FindByValues`, without what it fails with. -/
def findByValues (docs : List StoredIOC) (tenantID : GoString) (values : List GoString) :
    List StoredIOC :=
  if values = [] then []
  else
    -- what the source calls `lower` is a copy of the values
    let lowered := values.map fun v => runes 0 v
    docs.filter fun d => d.tenantID = tenantID ∧ lower d.value ∈ lowered

/-- `Hunt` -/
def hunt (docs : List StoredIOC) (tenantID : GoString) (values : List GoString) : List StoredIOC :=
  let clean := values.filter fun v => v ≠ []
  if clean = [] then [] else findByValues docs tenantID clean

variable {docs : List StoredIOC} {tenantID : GoString} {values values' : List GoString}
  {d : StoredIOC} {v w : GoString}

/-- **What is found**: the indicators of the tenant whose lower-case values are among the values. -/
theorem hunt_eq_filter (docs : List StoredIOC) (tenantID : GoString) (values : List GoString) :
    hunt docs tenantID values = docs.filter fun d =>
      d.tenantID = tenantID ∧ ∃ v ∈ values, v ≠ [] ∧ runes 0 v = lower d.value := by
  have hmem (d : StoredIOC) : (lower d.value ∈ (values.filter fun v => v ≠ []).map fun v => runes 0 v) ↔
      ∃ v ∈ values, v ≠ [] ∧ runes 0 v = lower d.value := by
    simp only [List.mem_map, List.mem_filter, decide_eq_true_eq, and_assoc]
  rw [hunt]
  by_cases hempty : (values.filter fun v => v ≠ []) = []
  · rw [if_pos hempty]
    refine (List.filter_eq_nil_iff.mpr fun d _ => ?_).symm
    rw [decide_eq_true_eq, ← hmem, hempty]
    rintro ⟨-, hfound⟩
    exact List.not_mem_nil hfound
  · rw [if_neg hempty, findByValues, if_neg hempty]
    refine List.filter_congr fun d _ => ?_
    rw [decide_eq_decide, hmem]

theorem mem_hunt : d ∈ hunt docs tenantID values ↔
    d ∈ docs ∧ d.tenantID = tenantID ∧ ∃ v ∈ values, v ≠ [] ∧ runes 0 v = lower d.value := by
  rw [hunt_eq_filter, List.mem_filter, decide_eq_true_eq]

/-! ### Spellings -/

/-- A value is nothing but white space. -/
def Blank (v : GoString) : Prop := ∀ r ∈ runes 0 v, isSpace r = true

instance (v : GoString) : Decidable (Blank v) := inferInstanceAs (Decidable (∀ r ∈ _, _))

/-- A value has one spelling: however its letters are cased, it is the lower-case form. -/
def OneSpelling (v : GoString) : Prop := ∀ w, lower w = lower v → runes 0 w = lower v

theorem runes_ne_nil (h : v ≠ []) : runes 0 v ≠ [] := by
  cases v with
  | nil => exact absurd rfl h
  | cons b bs => exact List.cons_ne_nil _ _

theorem lower_eq_nil_iff : lower v = [] ↔ v = [] := by
  rw [lower, List.map_eq_nil_iff]
  constructor
  · intro h
    by_contra hne
    exact runes_ne_nil hne h
  · rintro rfl
    rfl

theorem Blank.nil : Blank [] := fun _ h => absurd h List.not_mem_nil

/-- The values of one lower-case form are all blank, or none is. -/
theorem blank_congr (h : lower v = lower w) : Blank v ↔ Blank w := by
  have hlower (v : GoString) : Blank v ↔ ∀ r ∈ lower v, isSpace r = true := by
    rw [Blank, lower, List.forall_mem_map]
    simp only [isSpace_unicodeToLower]
  rw [hlower v, hlower w, h]

/-- A blank value has one spelling. -/
theorem Blank.oneSpelling (h : Blank v) : OneSpelling v := by
  intro w hw
  have hblank : Blank w := (blank_congr hw).mpr h
  rw [← hw, lower]
  refine (List.map_id _).symm.trans (List.map_congr_left fun r hr => ?_)
  exact (unicodeToLower_of_isSpace (hblank r hr)).symm

/-- What is spelled as a lower-case form has it for its own. -/
theorem lower_of_runes_eq (h : runes 0 w = lower v) : lower w = lower v := by
  have htwice : (lower v).map unicodeToLower = lower v := by
    rw [lower, List.map_map]
    exact List.map_congr_left fun r _ => unicodeToLower_idem r
  rw [lower, h, htwice]

/-- Having one spelling does not depend on the spelling. -/
theorem oneSpelling_congr (h : lower v = lower w) : OneSpelling v ↔ OneSpelling w := by
  rw [OneSpelling, OneSpelling, h]

/-! ### What hunting should be -/

/-- An indicator is to be found: it is the tenant's, and it is equal to a value that is not blank,
ignoring case. -/
def Sought (tenantID : GoString) (values : List GoString) (d : StoredIOC) : Prop :=
  d.tenantID = tenantID ∧ ∃ v ∈ values, ¬Blank v ∧ lower d.value = lower v

instance (tenantID : GoString) (values : List GoString) (d : StoredIOC) :
    Decidable (Sought tenantID values d) := inferInstanceAs (Decidable (_ ∧ _))

/-- The values of the one list are those of the other in another spelling. -/
def Recased (values values' : List GoString) : Prop :=
  List.Forall₂ (fun v v' => lower v = lower v') values values'

/-- **Hunting is exact**, and the same for all spellings. -/
structure Caseless (docs : List StoredIOC) (tenantID : GoString) (values : List GoString) : Prop where
  exact : hunt docs tenantID values = docs.filter fun d => Sought tenantID values d
  recased : ∀ values', Recased values values' →
    hunt docs tenantID values' = hunt docs tenantID values

/-- What an indicator of the tenant is equal to ignoring case has one spelling if it is not blank, and
is nothing if it is. -/
def Plain (docs : List StoredIOC) (tenantID : GoString) (values : List GoString) : Prop :=
  ∀ d ∈ docs, d.tenantID = tenantID → ∀ v ∈ values, lower d.value = lower v →
    (¬Blank v → OneSpelling v) ∧ (Blank v → v = [])

theorem Recased.mem (h : Recased values values') (hv : v ∈ values) :
    ∃ v' ∈ values', lower v = lower v' := by
  induction h with
  | nil => exact absurd hv List.not_mem_nil
  | @cons u u' us us' hu hus ih =>
    rcases List.mem_cons.mp hv with rfl | hv
    · exact ⟨u', List.mem_cons_self, hu⟩
    · obtain ⟨v', hv', hlower⟩ := ih hv
      exact ⟨v', List.mem_cons_of_mem u' hv', hlower⟩

theorem Recased.symm (h : Recased values values') : Recased values' values :=
  List.Forall₂.flip (List.Forall₂.imp (fun _ _ hlower => hlower.symm) h)

/-- In another spelling the same indicators are to be found. -/
theorem Recased.sought (h : Recased values values') (hd : Sought tenantID values d) :
    Sought tenantID values' d := by
  obtain ⟨htenant, v, hv, hblank, heq⟩ := hd
  obtain ⟨v', hv', hlower⟩ := h.mem hv
  exact ⟨htenant, v', hv', mt (blank_congr hlower).mpr hblank, heq.trans hlower⟩

theorem Recased.plain (h : Recased values values') (hplain : Plain docs tenantID values) :
    Plain docs tenantID values' := by
  intro d hd htenant v' hv' heq
  obtain ⟨v, hv, hlower⟩ := h.symm.mem hv'
  obtain ⟨hone, hnil⟩ := hplain d hd htenant v hv (heq.trans hlower)
  refine ⟨fun hblank => ?_, fun hblank => ?_⟩
  · exact (oneSpelling_congr hlower).mpr (hone (mt (blank_congr hlower).mpr hblank))
  · have hempty := hnil ((blank_congr hlower).mp hblank)
    rw [← lower_eq_nil_iff, hlower, hempty]
    rfl

/-- **Where the values are plain what is found is what is sought.** -/
theorem Plain.hunt_eq (h : Plain docs tenantID values) :
    hunt docs tenantID values = docs.filter fun d => Sought tenantID values d := by
  rw [hunt_eq_filter]
  refine List.filter_congr fun d hd => ?_
  rw [decide_eq_decide, Sought]
  refine and_congr_right fun htenant => ?_
  constructor
  · rintro ⟨v, hv, hne, hrunes⟩
    have hlower := lower_of_runes_eq hrunes
    exact ⟨v, hv, fun hblank => hne ((h d hd htenant v hv hlower.symm).2 hblank), hlower.symm⟩
  · rintro ⟨v, hv, hblank, heq⟩
    refine ⟨v, hv, fun hempty => hblank (hempty ▸ Blank.nil), ?_⟩
    rw [heq]
    exact (h d hd htenant v hv heq).1 hblank v rfl

/-- **Hunting is exact and the same for all spellings exactly if the values are plain.** -/
theorem caseless_iff (docs : List StoredIOC) (tenantID : GoString) (values : List GoString) :
    Caseless docs tenantID values ↔ Plain docs tenantID values := by
  constructor
  · intro h d hd htenant v hv heq
    refine ⟨fun hblank => ?_, fun hblank => ?_⟩
    · -- every value of this lower-case form may be spelled as `w` is
      intro w hw
      have hrecased : Recased values (values.map fun u => if lower u = lower v then w else u) := by
        rw [Recased, List.forall₂_map_right_iff]
        refine List.forall₂_same.mpr fun u _ => ?_
        split_ifs with hu
        · exact hu.trans hw.symm
        · rfl
      have hsought : d ∈ docs.filter fun d => Sought tenantID values d :=
        List.mem_filter.mpr ⟨hd, decide_eq_true ⟨htenant, v, hv, hblank, heq⟩⟩
      rw [← h.exact, ← h.recased _ hrecased, mem_hunt] at hsought
      obtain ⟨-, -, u', hu', -, hrunes⟩ := hsought
      obtain ⟨u, -, rfl⟩ := List.mem_map.mp hu'
      split_ifs at hrunes with hu
      · exact hrunes.trans heq
      · exact absurd ((lower_of_runes_eq hrunes).trans heq) hu
    · -- a blank value that is not empty would find the indicator, which is not sought for it
      by_contra hne
      have hfound : d ∈ hunt docs tenantID values :=
        mem_hunt.mpr ⟨hd, htenant, v, hv, hne, (hblank.oneSpelling v rfl).trans heq.symm⟩
      rw [h.exact, List.mem_filter, decide_eq_true_eq] at hfound
      obtain ⟨-, -, u, -, hnot, hlower⟩ := hfound
      exact hnot ((blank_congr (heq.symm.trans hlower)).mp hblank)
  · intro h
    refine ⟨h.hunt_eq, fun values' hrecased => ?_⟩
    rw [(hrecased.plain h).hunt_eq, h.hunt_eq]
    refine List.filter_congr fun d _ => ?_
    exact decide_eq_decide.mpr ⟨hrecased.symm.sought, hrecased.sought⟩

/-! ### A capital letter -/

/-- **An indicator is not found by its own value** if that has a capital letter, and it is found by a
value in small letters. -/
theorem not_caseless :
    hunt [indicator "Evil.example"] (str "t1") [str "Evil.example"] = [] ∧
      hunt [indicator "Evil.example"] (str "t1") [str "evil.example"] = [indicator "Evil.example"] ∧
      ¬Caseless [indicator "Evil.example"] (str "t1") [str "Evil.example"] := by
  have hupper : hunt [indicator "Evil.example"] (str "t1") [str "Evil.example"] = [] := by
    decide +kernel
  have hlower : hunt [indicator "Evil.example"] (str "t1") [str "evil.example"] =
      [indicator "Evil.example"] := by decide +kernel
  refine ⟨hupper, hlower, fun h => ?_⟩
  have hsame := h.recased [str "evil.example"] (.cons (by decide +kernel) .nil)
  rw [hupper, hlower] at hsame
  exact List.cons_ne_nil _ _ hsame

end Threat

end Xsiam
