import Xsiam.Identity.Current

/-!
# What the filters of the scores select

`ExposureScoreRepo.List` of `internal/repository/exposure_score.go` on the scores that `RecalcAll` of
`internal/domain/identity/service.go` has written. The list takes the factors for shares: exploited in the
wild is what is above 0.5, and on the internet what is 0.8 at least. `RecalcAll` writes them as multiples:
1 for what is ordinary, and 1.5 and 1.8 for what is raised.

So every score passes for exploited, and every one for the internet, and none for another category of the
four (`Xsiam.Identity.selected_score`). The filters mean what they say exactly where there is nothing to
select: every vulnerability that is visited is exploited, on every asset, and every asset is one of the
raised (`Xsiam.Identity.filtersMean_iff`).
-/

namespace Xsiam

namespace Identity

open Go Repository

/-! ### The list -/

/-- `ExposureListFilter` -/
structure ExposureListFilter where
  tenantID : GoString := []
  keyword : GoString := []
  fixStatus : GoString := []
  reachability : GoString := []
  inWild : GoString := []
  minScore : Float64 := ⟨0⟩
  maxScore : Float64 := ⟨0⟩
  cveID : GoString := []
  assetID : GoString := []
  page : ℤ := 0
  pageSize : ℤ := 0
  sortBy : GoString := []
  sortDesc : Bool := false

/-- The filter of a category, a range of the factor. Another text than those of the four is none. -/
def reachabilityFilter (reachability : GoString) : List (Repository.Filter ExposureScore) :=
  equalFilter "doc.reachability_factor >= 0.8" (reachability = str "internet")
      (fun s => Float64.le .c0_8 s.reachabilityFactor) ++
    equalFilter "doc.reachability_factor >= 0.6 AND doc.reachability_factor < 0.8"
      (reachability = str "dmz")
      (fun s => Float64.le .c0_6 s.reachabilityFactor && Float64.lt s.reachabilityFactor .c0_8) ++
    equalFilter "doc.reachability_factor >= 0.3 AND doc.reachability_factor < 0.6"
      (reachability = str "internal")
      (fun s => Float64.le .c0_3 s.reachabilityFactor && Float64.lt s.reachabilityFactor .c0_6) ++
    equalFilter "doc.reachability_factor < 0.3" (reachability = str "isolated")
      (fun s => Float64.lt s.reachabilityFactor .c0_3)

/-- The options that `ExposureScoreRepo.List` hands to `FindPaged`. -/
def ExposureListFilter.toList (f : ExposureListFilter) : ListOptions ExposureScore where
  collection := str "exposure_scores"
  filters :=
    tenantFilter (·.tenantID) f.tenantID ++
      equalFilter "CONTAINS(LOWER(doc.asset_name), LOWER(@kw))" (f.keyword ≠ [])
        (fun s => containsLower s.assetName f.keyword) ++
      equalFilter "doc.fix_status == @fixStatus" (f.fixStatus ≠ []) (·.fixStatus = f.fixStatus) ++
      reachabilityFilter f.reachability ++
      equalFilter "doc.in_wild_factor > 0.5" (f.inWild = str "true")
        (fun s => Float64.lt .c0_5 s.inWildFactor) ++
      equalFilter "doc.priority_score >= @min_score" (Float64.lt ⟨0⟩ f.minScore)
        (fun s => Float64.le f.minScore s.priorityScore) ++
      equalFilter "doc.priority_score <= @max_score" (Float64.lt ⟨0⟩ f.maxScore)
        (fun s => Float64.le s.priorityScore f.maxScore) ++
      equalFilter "doc.cve_id == @cve_id" (f.cveID ≠ []) (·.cveID = f.cveID) ++
      equalFilter "doc.asset_id == @asset_id" (f.assetID ≠ []) (·.assetID = f.assetID)
  bindVars :=
    bindIf "asset_id" (f.assetID ≠ []) (.str f.assetID) <|
      bindIf "cve_id" (f.cveID ≠ []) (.str f.cveID) <|
      bindIf "max_score" (Float64.lt ⟨0⟩ f.maxScore) (.float f.maxScore) <|
      bindIf "min_score" (Float64.lt ⟨0⟩ f.minScore) (.float f.minScore) <|
      bindIf "fixStatus" (f.fixStatus ≠ []) (.str f.fixStatus) <|
      bindIf "kw" (f.keyword ≠ []) (.str f.keyword) <|
      bindIf "tenantID" (f.tenantID ≠ []) (.str f.tenantID) ∅
  sortBy := if f.sortBy = [] then str "priority_score" else f.sortBy
  sortDesc := f.sortDesc
  page := f.page
  pageSize := f.pageSize

/-- The categories of reachability. -/
inductive Category where
  | internet
  | dmz
  | inside
  | isolated
deriving DecidableEq

/-- The text of a category in a filter. -/
def Category.text : Category → GoString
  | .internet => str "internet"
  | .dmz => str "dmz"
  | .inside => str "internal"
  | .isolated => str "isolated"

/-- What passes for exploited in the wild. -/
def wildFilter (tenantID : GoString) : ExposureListFilter := { tenantID, inWild := str "true" }

/-- A category of a tenant's scores. -/
def categoryFilter (tenantID : GoString) (c : Category) : ExposureListFilter :=
  { tenantID, reachability := c.text }

/-! ### What the filters are for -/

/-- The vulnerabilities that `RecalcAll` visits. -/
def openVulns (db : ExposureDb) (tenantID : GoString) : List Vulnerability :=
  match findPaged db.vulns
      (VulnerabilityListFilter.toList { tenantID, pageSize := 10000, page := 1 }) with
  | .error _ => []
  | .ok (vulns, _) => vulns.filter (·.isOpen)

/-- An asset and a vulnerability that is exploited on it. -/
def Exploited (db : ExposureDb) (tenantID : GoString) (p : GoString × GoString) : Prop :=
  ∃ v ∈ openVulns db tenantID, p.1 ∈ v.targets ∧ v.cveID = p.2 ∧ v.exploitedInWild = true

/-- An asset that is raised, and a vulnerability of it. -/
def Raised (db : ExposureDb) (tenantID : GoString) (p : GoString × GoString) : Prop :=
  ∃ v ∈ openVulns db tenantID, p.1 ∈ v.targets ∧ v.cveID = p.2 ∧ v.affectedAssetIDs ≠ [] ∧
    ∃ asset, db.assets p.1 = some asset ∧ (asset.type = .network ∨ asset.type = .cloud)

/-- The filters mean what the scores encode. -/
structure FiltersMean (db : ExposureDb) (tenantID : GoString) (scores : DBCollection ExposureScore) :
    Prop where
  wild : ∀ d ∈ scores.docs, d ∈ scores.matching (wildFilter tenantID).toList ↔
    Exploited db tenantID d.pair
  partition : ∀ d ∈ scores.docs, ∃! c : Category, d ∈ scores.matching (categoryFilter tenantID c).toList
  internet : ∀ d ∈ scores.docs, d ∈ scores.matching (categoryFilter tenantID .internet).toList ↔
    Raised db tenantID d.pair

/-! ### What is written -/

/-- The scores of what is visited. -/
theorem visited_eq (ops : FloatOps) (db : ExposureDb) (tenantID : GoString) :
    visited ops db tenantID =
      (openVulns db tenantID).flatMap fun v => v.targets.map (scoreOf ops db.assets tenantID v) := by
  rw [visited, openVulns]
  cases findPaged db.vulns
      (VulnerabilityListFilter.toList { tenantID, pageSize := 10000, page := 1 }) with
  | error err => rfl
  | ok r => rfl

/-- The factors of a score, by whom it is written. -/
structure Ordinary (tenantID : GoString) (d : ExposureScore) : Prop where
  tenant : d.tenantID = tenantID
  wild : d.inWildFactor = .c1 ∨ d.inWildFactor = .c1_5
  reach : d.reachabilityFactor = .c1 ∨ d.reachabilityFactor = .c1_8

theorem ordinary_visited (ops : FloatOps) (db : ExposureDb) (tenantID : GoString) :
    ∀ s ∈ visited ops db tenantID, Ordinary tenantID s := by
  intro s hs
  rw [visited_eq] at hs
  obtain ⟨v, -, hmem⟩ := List.mem_flatMap.mp hs
  obtain ⟨a, -, rfl⟩ := List.mem_map.mp hmem
  refine ⟨rfl, ?_, ?_⟩
  · have hwild : (scoreOf ops db.assets tenantID v a).inWildFactor =
        if v.exploitedInWild then .c1_5 else .c1 := rfl
    rw [hwild]
    split_ifs
    · exact .inr rfl
    · exact .inl rfl
  · change reachability _ = .c1 ∨ reachability _ = .c1_8
    generalize (if v.affectedAssetIDs = [] then none else db.assets a) = asset
    cases asset with
    | none => exact .inl rfl
    | some asset =>
      rw [reachability]
      split_ifs
      · exact .inr rfl
      · exact .inl rfl

theorem Ordinary.patchAll {tenantID : GoString} {ss : List ExposureScore} {d : ExposureScore}
    (hd : Ordinary tenantID d) (hss : ∀ s ∈ ss, Ordinary tenantID s) :
    Ordinary tenantID (patchAll ss d) := by
  induction ss generalizing d with
  | nil => exact hd
  | cons s ss ih =>
    obtain ⟨hs, hrest⟩ := List.forall_mem_cons.mp hss
    -- the factors are those of the patch, the tenant stays
    exact ih (d := patchScore s d) ⟨hd.tenant, hs.wild, hs.reach⟩ hrest

/-- **What a store that was empty has of a pair**: the first score of it, with all patches. -/
theorem ofPair_writeAll_nil (p : GoString × GoString) (ss : List ExposureScore) :
    ofPair p (writeAll [] ss).1 =
      match ofPair p ss with
      | [] => []
      | k :: ks => [patchAll ks k] := by
  have hpairs : ∀ s ∈ ofPair p ss, s.pair = p := fun s hs => (mem_ofPair.mp hs).2
  rw [ofPair_writeAll, ofPair, List.filter_nil]
  cases hss : ofPair p ss with
  | nil => rfl
  | cons k ks =>
    rw [hss] at hpairs
    obtain ⟨hk, hks⟩ := List.forall_mem_cons.mp hpairs
    exact writeAll_of_cons hk hks

/-- **Every score that is written is ordinary, and of something that was visited.** -/
theorem ordinary_of_mem {tenantID : GoString} {ss : List ExposureScore} {d : ExposureScore}
    (hss : ∀ s ∈ ss, Ordinary tenantID s) (hd : d ∈ (writeAll [] ss).1) :
    Ordinary tenantID d ∧ ∃ s ∈ ss, s.pair = d.pair := by
  have hmem : d ∈ ofPair d.pair (writeAll [] ss).1 := mem_ofPair.mpr ⟨hd, rfl⟩
  rw [ofPair_writeAll_nil] at hmem
  cases hpair : ofPair d.pair ss with
  | nil =>
    rw [hpair] at hmem
    exact absurd hmem List.not_mem_nil
  | cons k ks =>
    rw [hpair] at hmem
    have hin : ∀ s ∈ k :: ks, s ∈ ss ∧ s.pair = d.pair := fun s hs => mem_ofPair.mp (hpair ▸ hs)
    obtain ⟨hk, hks⟩ := List.forall_mem_cons.mp hin
    refine ⟨?_, k, hk.1, hk.2⟩
    rw [List.mem_singleton.mp hmem]
    exact (hss k hk.1).patchAll fun s hs => hss s (hks s hs).1

/-- **And everything that was visited has a score.** -/
theorem exists_of_visited {ss : List ExposureScore} {s : ExposureScore} (hs : s ∈ ss) :
    ∃ d ∈ (writeAll [] ss).1, d.pair = s.pair := by
  have hmem : s ∈ ofPair s.pair ss := mem_ofPair.mpr ⟨hs, rfl⟩
  cases hpair : ofPair s.pair ss with
  | nil =>
    rw [hpair] at hmem
    exact absurd hmem List.not_mem_nil
  | cons k ks =>
    have hstore : ofPair s.pair (writeAll [] ss).1 = [patchAll ks k] := by
      rw [ofPair_writeAll_nil, hpair]
    exact ⟨_, mem_ofPair.mp (hstore ▸ List.mem_singleton_self (patchAll ks k))⟩

/-! ### What is selected -/

/-- A bound of zero is none. -/
theorem not_zero_lt_zero : Float64.lt ⟨0#64⟩ ⟨0#64⟩ = false := by decide

theorem passes_wild_iff (tenantID : GoString) (d : ExposureScore) :
    (wildFilter tenantID).toList.passes d = true ↔
      OfTenant tenantID d.tenantID ∧ Float64.lt .c0_5 d.inWildFactor = true := by
  have htenant := @all_tenantFilter _ ExposureScore.tenantID tenantID d
  have hnone : reachabilityFilter [] = [] := by decide
  rw [ListOptions.passes, ← htenant]
  simp [wildFilter, ExposureListFilter.toList, hnone, equalFilter, not_zero_lt_zero]

/-- The range of the factor that a category has. -/
def Category.has (f : Float64) : Category → Bool
  | .internet => Float64.le .c0_8 f
  | .dmz => Float64.le .c0_6 f && Float64.lt f .c0_8
  | .inside => Float64.le .c0_3 f && Float64.lt f .c0_6
  | .isolated => Float64.lt f .c0_3

theorem passes_category_iff (tenantID : GoString) (c : Category) (d : ExposureScore) :
    (categoryFilter tenantID c).toList.passes d = true ↔
      OfTenant tenantID d.tenantID ∧ c.has d.reachabilityFactor = true := by
  have htenant := @all_tenantFilter _ ExposureScore.tenantID tenantID d
  have htrue : str "true" ≠ [] := by decide
  rw [ListOptions.passes, ← htenant]
  cases c with
  | internet =>
    simp [categoryFilter, Category.text, Category.has, ExposureListFilter.toList, reachabilityFilter,
      equalFilter, not_zero_lt_zero, htrue.symm]
  | dmz =>
    simp [categoryFilter, Category.text, Category.has, ExposureListFilter.toList, reachabilityFilter,
      equalFilter, not_zero_lt_zero, htrue.symm]
  | inside =>
    simp [categoryFilter, Category.text, Category.has, ExposureListFilter.toList, reachabilityFilter,
      equalFilter, not_zero_lt_zero, htrue.symm]
  | isolated =>
    simp [categoryFilter, Category.text, Category.has, ExposureListFilter.toList, reachabilityFilter,
      equalFilter, not_zero_lt_zero, htrue.symm]

/-- **A score of `RecalcAll` is selected for exploited, and for the internet and no other category**,
whatever it is of. -/
theorem selected_score {tenantID : GoString} {d : ExposureScore} (h : Ordinary tenantID d) :
    (wildFilter tenantID).toList.passes d = true ∧
      ∀ c : Category, (categoryFilter tenantID c).toList.passes d = true ↔ c = .internet := by
  have htenant : OfTenant tenantID d.tenantID := .inr h.tenant
  refine ⟨(passes_wild_iff _ _).mpr ⟨htenant, ?_⟩, fun c => ?_⟩
  · rcases h.wild with hwild | hwild
    · rw [hwild]
      decide
    · rw [hwild]
      decide
  · rw [passes_category_iff, and_iff_right htenant]
    rcases h.reach with hreach | hreach
    · rw [hreach]
      cases c <;> decide
    · rw [hreach]
      cases c <;> decide

/-- **The filters mean what the scores encode exactly where every vulnerability that is visited is
exploited on each of its assets, and each of these is raised.** -/
theorem filtersMean_iff {ops : FloatOps} {db : ExposureDb} {tenantID : GoString}
    {ds written : List ExposureScore} {scores : DBCollection ExposureScore} (hempty : db.scores = [])
    (hrecalc : recalcAll ops db tenantID = .ok (ds, written)) (hscores : scores.docs = ds) :
    FiltersMean db tenantID scores ↔ ∀ v ∈ openVulns db tenantID, ∀ assetID ∈ v.targets,
      Exploited db tenantID (assetID, v.cveID) ∧ Raised db tenantID (assetID, v.cveID) := by
  have hstore : scores.docs = (writeAll [] (visited ops db tenantID)).1 := by
    rw [← recalcAllFailing_none] at hrecalc
    obtain ⟨err, hrun, -⟩ | hrun := recalcAllFailing_cases ops (fun _ => false) db tenantID
    · rw [hrun] at hrecalc
      cases hrecalc
    · rw [hrun, succeeding_none, hempty] at hrecalc
      rw [hscores, Except.ok.inj hrecalc]
  have hordinary := ordinary_visited ops db tenantID
  have hdoc : ∀ d ∈ scores.docs, Ordinary tenantID d ∧ ∃ s ∈ visited ops db tenantID, s.pair = d.pair :=
    fun d hd => ordinary_of_mem hordinary (hstore ▸ hd)
  have hwild : ∀ d ∈ scores.docs, d ∈ scores.matching (wildFilter tenantID).toList := fun d hd =>
    mem_matching.mpr ⟨hd, (selected_score (hdoc d hd).1).1⟩
  have hcategory : ∀ d ∈ scores.docs, ∀ c : Category,
      d ∈ scores.matching (categoryFilter tenantID c).toList ↔ c = .internet := fun d hd c =>
    mem_matching.trans ((and_iff_right hd).trans ((selected_score (hdoc d hd).1).2 c))
  -- every pair that is visited has a score, and every score is of such a pair
  constructor
  · intro h v hv assetID hasset
    have hvisited : scoreOf ops db.assets tenantID v assetID ∈ visited ops db tenantID := by
      rw [visited_eq]
      exact List.mem_flatMap.mpr ⟨v, hv, List.mem_map_of_mem hasset⟩
    obtain ⟨d, hd, hpair⟩ := exists_of_visited hvisited
    rw [← hstore] at hd
    have hpair' : d.pair = (assetID, v.cveID) := hpair
    rw [← hpair']
    exact ⟨(h.wild d hd).mp (hwild d hd), (h.internet d hd).mp ((hcategory d hd _).mpr rfl)⟩
  · intro h
    have hall : ∀ d ∈ scores.docs, Exploited db tenantID d.pair ∧ Raised db tenantID d.pair := by
      intro d hd
      obtain ⟨s, hs, hpair⟩ := (hdoc d hd).2
      rw [visited_eq] at hs
      obtain ⟨v, hv, hmem⟩ := List.mem_flatMap.mp hs
      obtain ⟨assetID, hasset, rfl⟩ := List.mem_map.mp hmem
      rw [← hpair]
      exact h v hv assetID hasset
    refine ⟨fun d hd => iff_of_true (hwild d hd) (hall d hd).1, fun d hd => ?_,
      fun d hd => iff_of_true ((hcategory d hd _).mpr rfl) (hall d hd).2⟩
    exact ⟨.internet, (hcategory d hd _).mpr rfl, fun c hc => (hcategory d hd c).mp hc⟩

/-! ### One vulnerability -/

/-- A vulnerability of one asset. -/
def assetVuln (exploitedInWild : Bool) : Vulnerability where
  tenantID := str "t1"
  cveID := str "CVE-1"
  cvssScore := .c5
  exploitedInWild
  affectedAssetIDs := [str "a-1"]

/-- The vulnerability and its asset, and no scores. -/
def oneVuln (exploitedInWild : Bool) (type : AssetType) : ExposureDb where
  vulns := .unsorted [assetVuln exploitedInWild]
  assets assetID := if assetID = str "a-1" then some ⟨str "gw", type, str "low"⟩ else none
  scores := []

/-- The scores of a database that leaves documents in the order they are in. -/
def scoresAfter (db : ExposureDb) : DBCollection ExposureScore :=
  .unsorted (writeAll [] (visited oneOps db (str "t1"))).1

theorem openVulns_oneVuln (exploitedInWild : Bool) (type : AssetType) :
    openVulns (oneVuln exploitedInWild type) (str "t1") = [assetVuln exploitedInWild] := rfl

/-- A vulnerability that is exploited on a network device. -/
theorem filtersMean_raised : FiltersMean (oneVuln true .network) (str "t1")
    (scoresAfter (oneVuln true .network)) :=
  (@filtersMean_iff oneOps (oneVuln true .network) _ _ _ _ rfl rfl rfl).mpr (by
    have hasset : (oneVuln true .network).assets (str "a-1") =
        some ⟨str "gw", .network, str "low"⟩ := rfl
    simp [Exploited, Raised, openVulns_oneVuln, Vulnerability.targets, assetVuln, hasset])

/-- **A vulnerability that nobody exploits, on a server, is listed as exploited and on the internet.** -/
theorem not_filtersMean : ¬FiltersMean (oneVuln false .server) (str "t1")
    (scoresAfter (oneVuln false .server)) := by
  intro h
  obtain ⟨d, hdocs, hpasses⟩ : ∃ d, (scoresAfter (oneVuln false .server)).docs = [d] ∧
      (wildFilter (str "t1")).toList.passes d = true := ⟨_, rfl, by decide +kernel⟩
  have hmem : d ∈ (scoresAfter (oneVuln false .server)).docs := hdocs ▸ List.mem_singleton_self d
  obtain ⟨v, hv, -, -, hexploited⟩ := (h.wild d hmem).mp (mem_matching.mpr ⟨hmem, hpasses⟩)
  rw [openVulns_oneVuln, List.mem_singleton] at hv
  rw [hv] at hexploited
  cases hexploited

end Identity

end Xsiam
