import Xsiam.Identity.Exposure

/-!
# Scores that are current

After `ExposureService.RecalcAll` a tenant should have one score for each vulnerability and asset that
was visited, with what is true of the two now, and the scores of the others should be left alone.
`Upsert` looks for a score of the vulnerability and the asset, whoever it is of, and what it patches is
the factors and not the CVSS value or the fix status; and an upsert that fails is passed over. So
`Xsiam.Identity.current_iff` says of every pair what there has to be of it before.
-/

namespace Xsiam

namespace Identity

open Go Repository

/-! ### What scores say -/

/-- What is patched. -/
def ExposureScore.factors (s : ExposureScore) : Float64 × Float64 × Float64 × Float64 :=
  (s.priorityScore, s.inWildFactor, s.reachabilityFactor, s.assetImportanceFactor)

/-- What is only written once. -/
def ExposureScore.facts (s : ExposureScore) : Float64 × GoString := (s.cvssScore, s.fixStatus)

/-- A document says of its vulnerability and its asset what a score does. -/
def Says (d s : ExposureScore) : Prop := d.factors = s.factors ∧ d.facts = s.facts

instance (d s : ExposureScore) : Decidable (Says d s) := inferInstanceAs (Decidable (_ ∧ _))

/-- The documents of a pair. -/
def ofPair (p : GoString × GoString) (ds : List ExposureScore) : List ExposureScore :=
  ds.filter fun d => d.pair = p

/-- Those of a tenant. -/
def own (tenantID : GoString) (ds : List ExposureScore) : List ExposureScore :=
  ds.filter fun d => d.tenantID = tenantID

/-! ### Writes that fail -/

/-- The scores whose upserts do not fail. -/
def succeeding (fails : ℕ → Bool) (ss : List ExposureScore) : List ExposureScore :=
  (ss.zipIdx.filter fun p => !fails p.2).map Prod.fst

section Recalc

variable (ops : FloatOps) (fails : ℕ → Bool) (db : ExposureDb) (tenantID : GoString)

/-- `RecalcAll`, where an upsert may fail and nobody hears of it. -/
def recalcAllFailing : Except GoString (List ExposureScore × List ExposureScore) :=
  match findPaged db.vulns
      (VulnerabilityListFilter.toList { tenantID, pageSize := 10000, page := 1 }) with
  | .error err => .error err
  | .ok (vulns, _) =>
    .ok (writeAll db.scores (succeeding fails (scoresOf ops db.assets tenantID vulns)))

/-- The scores of what `RecalcAll` visits, as they are now. -/
def visited : List ExposureScore :=
  match findPaged db.vulns
      (VulnerabilityListFilter.toList { tenantID, pageSize := 10000, page := 1 }) with
  | .error _ => []
  | .ok (vulns, _) => scoresOf ops db.assets tenantID vulns

/-- There is one score of the tenant for each pair visited, it says what is true of it now, and no score
of another tenant is written. -/
structure Current (ss ds written : List ExposureScore) : Prop where
  one : ∀ s ∈ ss, ∃ d, own tenantID (ofPair s.pair ds) = [d] ∧ Says d s
  others : ∀ w ∈ written, w.tenantID = tenantID

end Recalc

theorem succeeding_none (ss : List ExposureScore) : succeeding (fun _ => false) ss = ss := by
  have hall : ss.zipIdx.filter (fun _ => !false) = ss.zipIdx := List.filter_eq_self.mpr fun _ _ => rfl
  rw [succeeding, hall, List.zipIdx_map_fst]

theorem succeeding_sublist (fails : ℕ → Bool) (ss : List ExposureScore) :
    (succeeding fails ss).Sublist ss := by
  rw [succeeding]
  refine (List.filter_sublist.map Prod.fst).trans ?_
  rw [List.zipIdx_map_fst]

/-- Without failures it is `RecalcAll`. -/
theorem recalcAllFailing_none (ops : FloatOps) (db : ExposureDb) (tenantID : GoString) :
    recalcAllFailing ops (fun _ => false) db tenantID = recalcAll ops db tenantID := by
  rw [recalcAllFailing, recalcAll]
  cases findPaged db.vulns
      (VulnerabilityListFilter.toList { tenantID, pageSize := 10000, page := 1 }) with
  | error err => rfl
  | ok r =>
    dsimp only
    rw [succeeding_none]

/-! ### One pair -/

variable {tenantID : GoString} {p : GoString × GoString} {d s : ExposureScore}
  {ds rest ss kept : List ExposureScore}

theorem mem_ofPair : d ∈ ofPair p ds ↔ d ∈ ds ∧ d.pair = p := by
  rw [ofPair, List.mem_filter, decide_eq_true_iff]

theorem ofPair_cons (d : ExposureScore) (ds : List ExposureScore) :
    ofPair p (d :: ds) = if d.pair = p then d :: ofPair p ds else ofPair p ds := by
  rw [ofPair, List.filter_cons, ofPair]
  simp only [decide_eq_true_eq]

theorem own_cons (d : ExposureScore) (ds : List ExposureScore) :
    own tenantID (d :: ds) = if d.tenantID = tenantID then d :: own tenantID ds else own tenantID ds := by
  rw [own, List.filter_cons, own]
  simp only [decide_eq_true_eq]

/-- An upsert of another pair leaves the pair alone. -/
theorem ofPair_upsert (score : ExposureScore) (ds : List ExposureScore) :
    ofPair p (upsert score ds).1 =
      if score.pair = p then (upsert score (ofPair p ds)).1 else ofPair p ds := by
  induction ds with
  | nil => exact ofPair_cons score []
  | cons d ds ih =>
    rw [upsert, ofPair_cons]
    by_cases h : d.pair = score.pair
    · have hpatch : (patchScore score d).pair = d.pair := rfl
      rw [if_pos h, ofPair_cons, hpatch, h]
      by_cases hp : score.pair = p
      · rw [if_pos hp, if_pos hp, if_pos hp, upsert, if_pos h]
      · rw [if_neg hp, if_neg hp, if_neg hp]
    · rw [if_neg h, ofPair_cons, ih]
      by_cases hd : d.pair = p
      · have hp : score.pair ≠ p := fun hp => h (hd.trans hp.symm)
        rw [if_pos hd, if_neg hp, if_neg hp, if_pos hd]
      · rw [if_neg hd, if_neg hd]

/-- **What is written of a pair is written to the documents of the pair.** -/
theorem ofPair_writeAll (ss : List ExposureScore) : ∀ ds : List ExposureScore,
    ofPair p (writeAll ds ss).1 = (writeAll (ofPair p ds) (ofPair p ss)).1 := by
  induction ss with
  | nil => exact fun ds => rfl
  | cons s ss ih =>
    intro ds
    rw [writeAll, ih, ofPair_upsert, ofPair_cons]
    by_cases hp : s.pair = p
    · rw [if_pos hp, if_pos hp, writeAll]
    · rw [if_neg hp, if_neg hp]

/-- One patch after the other. -/
def patchAll (ss : List ExposureScore) (d : ExposureScore) : ExposureScore :=
  ss.foldl (fun d s => patchScore s d) d

/-- The first document of a pair takes all the patches. -/
theorem writeAll_of_cons (hd : d.pair = p) (hss : ∀ s ∈ ss, s.pair = p) :
    (writeAll (d :: rest) ss).1 = patchAll ss d :: rest := by
  induction ss generalizing d with
  | nil => rfl
  | cons s ss ih =>
    obtain ⟨hs, hrest⟩ := List.forall_mem_cons.mp hss
    have hupsert : (upsert s (d :: rest)).1 = patchScore s d :: rest := by
      rw [upsert, if_pos (hd.trans hs.symm)]
    have hpatch : (patchScore s d).pair = p := hd
    rw [writeAll, hupsert]
    exact ih hpatch hrest

/-- Patches leave the tenant and the facts as they are. -/
theorem patchAll_kept (ss : List ExposureScore) (d : ExposureScore) :
    (patchAll ss d).tenantID = d.tenantID ∧ (patchAll ss d).facts = d.facts := by
  induction ss generalizing d with
  | nil => exact ⟨rfl, rfl⟩
  | cons s ss ih => exact ih (patchScore s d)

theorem factors_patchAll {f : Float64 × Float64 × Float64 × Float64}
    (hss : ∀ s ∈ ss, s.factors = f) (h : ss ≠ [] ∨ d.factors = f) : (patchAll ss d).factors = f := by
  induction ss generalizing d with
  | nil => exact h.resolve_left (not_not.mpr rfl)
  | cons s ss ih =>
    obtain ⟨hs, hrest⟩ := List.forall_mem_cons.mp hss
    exact ih hrest (.inr hs)

/-! ### The other tenants -/

/-- Nothing of another tenant is written where no pair is looked up that another tenant has. -/
theorem writeAll_tenantID_iff (hss : ∀ s ∈ ss, s.tenantID = tenantID) : ∀ {ds : List ExposureScore},
    (∀ w ∈ (writeAll ds ss).2, w.tenantID = tenantID) ↔
      ∀ s ∈ ss, ownerOf tenantID ds s.pair = tenantID := by
  induction ss with
  | nil => exact ⟨fun _ => nofun, fun _ => nofun⟩
  | cons s ss ih =>
    intro ds
    obtain ⟨rfl, hrest⟩ := List.forall_mem_cons.mp hss
    rw [writeAll, List.forall_mem_cons, List.forall_mem_cons, ih hrest, (upsert_written s ds).2]
    simp only [ownerOf_upsert]

/-- **Where nothing of another tenant is written, their scores are as they were.** -/
theorem others_writeAll : ∀ {ds : List ExposureScore},
    (∀ w ∈ (writeAll ds ss).2, w.tenantID = tenantID) →
      (writeAll ds ss).1.filter (fun d => d.tenantID ≠ tenantID) =
        ds.filter fun d => d.tenantID ≠ tenantID := by
  have hupsert (s : ExposureScore) (ds : List ExposureScore)
      (h : (upsert s ds).2.tenantID = tenantID) :
      (upsert s ds).1.filter (fun d => d.tenantID ≠ tenantID) =
        ds.filter fun d => d.tenantID ≠ tenantID := by
    induction ds with
    | nil =>
      refine List.filter_eq_nil_iff.mpr fun d hd => ?_
      have hs : s.tenantID = tenantID := h
      rw [List.mem_singleton.mp hd]
      simpa using hs
    | cons d ds ih =>
      rw [upsert] at h ⊢
      split_ifs at h ⊢
      · have hpatch : (patchScore s d).tenantID = d.tenantID := rfl
        have hd : d.tenantID = tenantID := h
        rw [List.filter_cons_of_neg (by simp [hpatch, hd]), List.filter_cons_of_neg (by simp [hd])]
      · rw [List.filter_cons, List.filter_cons, ih h]
  induction ss with
  | nil => exact fun _ => rfl
  | cons s ss ih =>
    intro ds h
    obtain ⟨hs, hrest⟩ := List.forall_mem_cons.mp h
    exact (ih hrest).trans (hupsert s ds hs)

/-! ### What there has to be before -/

/-- What is needed for a pair: whatever is visited for it agrees on it; if something is written for it,
the first document there is of it is the tenant's, says what is not patched, and is the only one of the
tenant; and if nothing is, the tenant has one document of it already, which says all. -/
def Ready (tenantID : GoString) (ss kept ds : List ExposureScore) (s : ExposureScore) : Prop :=
  (∀ s' ∈ ss, s'.pair = s.pair → Says s' s) ∧
    if ∃ s' ∈ kept, s'.pair = s.pair then
      match ofPair s.pair ds with
      | [] => True
      | d :: rest => d.tenantID = tenantID ∧ d.facts = s.facts ∧ own tenantID rest = []
    else ∃ d, own tenantID (ofPair s.pair ds) = [d] ∧ Says d s

theorem ownerOf_eq_ofPair (ds : List ExposureScore) :
    ownerOf tenantID ds p = (((ofPair p ds).head?).map (·.tenantID)).getD tenantID := by
  rw [ownerOf, ofPair, List.head?_filter]

theorem ofPair_ne_nil (h : ∃ s ∈ kept, s.pair = p) : ofPair p kept ≠ [] := by
  obtain ⟨s, hs, hp⟩ := h
  exact List.ne_nil_of_mem (mem_ofPair.mpr ⟨hs, hp⟩)

section Pair

variable (hss : ∀ s ∈ ss, s.tenantID = tenantID) (hkept : ∀ s ∈ kept, s ∈ ss)
include hss hkept

/-- A pair that is ready gets one score that says what is true of it. -/
theorem Ready.one (h : Ready tenantID ss kept ds s) :
    ∃ d, own tenantID (ofPair s.pair (writeAll ds kept).1) = [d] ∧ Says d s := by
  obtain ⟨hagree, hbefore⟩ := h
  rw [ofPair_writeAll]
  by_cases hwritten : ∃ s' ∈ kept, s'.pair = s.pair
  · rw [if_pos hwritten] at hbefore
    have hpairs : ∀ s' ∈ ofPair s.pair kept, s'.pair = s.pair := fun s' hs' => (mem_ofPair.mp hs').2
    have htold : ∀ s' ∈ ofPair s.pair kept, Says s' s := fun s' hs' =>
      hagree s' (hkept s' (mem_ofPair.mp hs').1) (mem_ofPair.mp hs').2
    have htenants : ∀ s' ∈ ofPair s.pair kept, s'.tenantID = tenantID := fun s' hs' =>
      hss s' (hkept s' (mem_ofPair.mp hs').1)
    have hne := ofPair_ne_nil hwritten
    cases hds : ofPair s.pair ds with
    | nil =>
      -- the first score is created, and the others patch it
      cases hK : ofPair s.pair kept with
      | nil => exact absurd hK hne
      | cons k ks =>
        rw [hK] at hpairs htold htenants
        obtain ⟨hkpair, hkspairs⟩ := List.forall_mem_cons.mp hpairs
        obtain ⟨hktold, hkstold⟩ := List.forall_mem_cons.mp htold
        have hrun : (writeAll [] (k :: ks)).1 = [patchAll ks k] := writeAll_of_cons hkpair hkspairs
        obtain ⟨htenant, hfacts⟩ := patchAll_kept ks k
        refine ⟨patchAll ks k, ?_, ?_, hfacts.trans hktold.2⟩
        · rw [hrun, own_cons, if_pos (htenant.trans (List.forall_mem_cons.mp htenants).1)]
          rfl
        · exact factors_patchAll (fun s' hs' => (hkstold s' hs').1) (.inr hktold.1)
    | cons d rest =>
      rw [hds] at hbefore
      obtain ⟨hd, hdfacts, hrest⟩ := hbefore
      have hdpair : d.pair = s.pair := (mem_ofPair.mp (hds ▸ List.mem_cons_self)).2
      obtain ⟨htenant, hfacts⟩ := patchAll_kept (ofPair s.pair kept) d
      refine ⟨patchAll (ofPair s.pair kept) d, ?_, ?_, hfacts.trans hdfacts⟩
      · rw [writeAll_of_cons hdpair hpairs, own_cons, if_pos (htenant.trans hd), hrest]
      · exact factors_patchAll (fun s' hs' => (htold s' hs').1) (.inl hne)
  · rw [if_neg hwritten] at hbefore
    have hnone : ofPair s.pair kept = [] := List.filter_eq_nil_iff.mpr fun s' hs' hp =>
      hwritten ⟨s', hs', of_decide_eq_true hp⟩
    rw [hnone]
    exact hbefore

/-- Where everything is current, every pair was ready. -/
theorem Current.ready (hs : s ∈ ss) (h : Current tenantID ss (writeAll ds kept).1 (writeAll ds kept).2) :
    Ready tenantID ss kept ds s := by
  obtain ⟨d, hd, htold⟩ := h.one s hs
  refine ⟨fun s' hs' hp => ?_, ?_⟩
  · -- the two have one document
    obtain ⟨d', hd', htold'⟩ := h.one s' hs'
    rw [hp, hd] at hd'
    obtain rfl := List.singleton_inj.mp hd'
    exact ⟨htold'.1.symm.trans htold.1, htold'.2.symm.trans htold.2⟩
  · rw [ofPair_writeAll] at hd
    split_ifs with hwritten
    · have hpairs : ∀ s' ∈ ofPair s.pair kept, s'.pair = s.pair := fun s' hs' => (mem_ofPair.mp hs').2
      obtain ⟨s', hs', hp⟩ := hwritten
      have howner := (writeAll_tenantID_iff fun s hs => hss s (hkept s hs)).mp h.others s' hs'
      rw [hp, ownerOf_eq_ofPair] at howner
      cases hds : ofPair s.pair ds with
      | nil => exact trivial
      | cons e rest =>
        rw [hds] at howner hd
        have hepair : e.pair = s.pair := (mem_ofPair.mp (hds ▸ List.mem_cons_self)).2
        have he : e.tenantID = tenantID := howner
        obtain ⟨htenant, hfacts⟩ := patchAll_kept (ofPair s.pair kept) e
        rw [writeAll_of_cons hepair hpairs, own_cons, if_pos (htenant.trans he)] at hd
        obtain ⟨rfl, hrest⟩ := List.cons.inj hd
        exact ⟨he, hfacts.symm.trans htold.2, hrest⟩
    · have hnone : ofPair s.pair kept = [] := List.filter_eq_nil_iff.mpr fun s' hs' hp =>
        hwritten ⟨s', hs', of_decide_eq_true hp⟩
      rw [hnone] at hd
      exact ⟨d, hd, htold⟩

end Pair

/-- **When the scores are current that are written**: when every pair that is visited was ready. -/
theorem writeAll_current_iff (hss : ∀ s ∈ ss, s.tenantID = tenantID) (hkept : ∀ s ∈ kept, s ∈ ss) :
    Current tenantID ss (writeAll ds kept).1 (writeAll ds kept).2 ↔
      ∀ s ∈ ss, Ready tenantID ss kept ds s := by
  refine ⟨fun h s hs => h.ready hss hkept hs, fun h => ⟨fun s hs => (h s hs).one hss hkept, ?_⟩⟩
  refine (writeAll_tenantID_iff fun s hs => hss s (hkept s hs)).mpr fun s hs => ?_
  have hbefore := (h s (hkept s hs)).2
  rw [if_pos ⟨s, hs, rfl⟩] at hbefore
  rw [ownerOf_eq_ofPair]
  cases hds : ofPair s.pair ds with
  | nil => rfl
  | cons d rest =>
    rw [hds] at hbefore
    exact hbefore.1

/-- The scores of a tenant's vulnerabilities are the tenant's. -/
theorem tenantID_visited (ops : FloatOps) (db : ExposureDb) (tenantID : GoString) :
    ∀ s ∈ visited ops db tenantID, s.tenantID = tenantID := by
  intro s hs
  rw [visited] at hs
  split at hs
  · exact absurd hs List.not_mem_nil
  · obtain ⟨v, -, hmem⟩ := List.mem_flatMap.mp hs
    obtain ⟨a, -, rfl⟩ := List.mem_map.mp hmem
    rfl

/-- The list fails, or what is visited is written. -/
theorem recalcAllFailing_cases (ops : FloatOps) (fails : ℕ → Bool) (db : ExposureDb)
    (tenantID : GoString) :
    (∃ err, recalcAllFailing ops fails db tenantID = .error err ∧ visited ops db tenantID = []) ∨
      recalcAllFailing ops fails db tenantID =
        .ok (writeAll db.scores (succeeding fails (visited ops db tenantID))) := by
  rw [recalcAllFailing, visited]
  cases findPaged db.vulns
      (VulnerabilityListFilter.toList { tenantID, pageSize := 10000, page := 1 }) with
  | error err => exact .inl ⟨err, rfl, rfl⟩
  | ok r => exact .inr rfl

/-- **When `RecalcAll` leaves the scores of a tenant current, and those of the others alone.** -/
theorem recalcAll_current_iff (ops : FloatOps) (fails : ℕ → Bool) (db : ExposureDb)
    (tenantID : GoString) :
    (∀ ds written, recalcAllFailing ops fails db tenantID = .ok (ds, written) →
      Current tenantID (visited ops db tenantID) ds written) ↔
    ∀ s ∈ visited ops db tenantID, Ready tenantID (visited ops db tenantID)
      (succeeding fails (visited ops db tenantID)) db.scores s := by
  obtain ⟨err, hrun, hnone⟩ | hrun := recalcAllFailing_cases ops fails db tenantID
  · rw [hrun, hnone]
    exact iff_of_true nofun nofun
  · rw [hrun, ← writeAll_current_iff (tenantID_visited ops db tenantID) fun s hs =>
      (succeeding_sublist fails _).mem hs]
    refine ⟨fun h => h _ _ rfl, fun h ds written heq => ?_⟩
    obtain ⟨rfl, rfl⟩ := Prod.mk.inj (Except.ok.inj heq)
    exact h

/-! ### A score of another tenant -/

/-- The arithmetic of floats, right on the products of the example. -/
def oneOps : FloatOps where
  add x _ := x
  mul x _ := x
  div x _ := x
  min x _ := x
  log10 x := x
  round x := x
  ofInt _ := .c1

/-- A vulnerability of one tenant, and a score of another for the same asset. -/
def sharedPair : ExposureDb where
  vulns := .unsorted
    [{ tenantID := str "t1", cveID := str "CVE-1", cvssScore := .c5, affectedAssetIDs := [str "a-1"] }]
  assets := fun _ => none
  scores := [{ tenantID := str "t2", assetID := str "a-1", cveID := str "CVE-1", cvssScore := .c5,
               priorityScore := .c5, inWildFactor := .c1, fixStatus := str "open" }]

/-- **The score of the other tenant is written, and the tenant gets none.** -/
theorem not_current_recalcAll : ¬∀ ops db tenantID ds written,
    recalcAll ops db tenantID = .ok (ds, written) →
      Current tenantID (visited ops db tenantID) ds written := by
  intro h
  obtain ⟨ds, written, hrun, htenants⟩ : ∃ ds written,
      recalcAll oneOps sharedPair (str "t1") = .ok (ds, written) ∧
        written.map (·.tenantID) = [str "t2"] := ⟨_, _, rfl, rfl⟩
  have hothers := (h oneOps sharedPair (str "t1") ds written hrun).others
  obtain ⟨w, hw, htenant⟩ := List.mem_map.mp (htenants ▸ List.mem_singleton_self (str "t2"))
  exact absurd (htenant.symm.trans (hothers w hw)) (by decide)

end Identity

end Xsiam
