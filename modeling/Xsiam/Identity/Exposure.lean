import Xsiam.Etl.Model
import Xsiam.Go.Float
import Xsiam.Repository.LogEntries

/-!
# The exposure of a tenant's assets

`ExposureService.RecalcAll` of `internal/domain/identity/service.go`, with the lists and the
`Upsert` of `internal/repository` it works on: a score for each open vulnerability and each
asset it affects.

A score is looked up by its asset and its vulnerability alone. Where another tenant has a score
for the two, that one is rewritten, and the tenant gets none of its own
(`Xsiam.Identity.writeAll_iff`).
-/

namespace Xsiam

namespace Identity

open Go Repository

/-! ### The records -/

/-- `model.VulnFixStatus`. A text that is none of its constants is `other`. -/
inductive VulnFixStatus where
  | opened
  | inProgress
  | fixed
  | accepted
  | other (s : GoString)
deriving DecidableEq

/-- The text of a status. -/
def VulnFixStatus.text : VulnFixStatus → GoString
  | .opened => str "open"
  | .inProgress => str "in_progress"
  | .fixed => str "fixed"
  | .accepted => str "accepted_risk"
  | .other s => s

/-- `model.Vulnerability`, the members that are read here. -/
structure Vulnerability where
  tenantID : GoString := []
  cveID : GoString
  title : GoString := []
  cvssScore : Float64 := ⟨0⟩
  severity : GoString := []
  exploitedInWild : Bool := false
  affectedAssetIDs : List GoString := []
  fixStatus : VulnFixStatus := .opened
  affectedAssets : List GoString := []

/-- `model.AssetType`. A text that is none of its constants is `other`. -/
inductive AssetType where
  | server
  | workstation
  | network
  | cloud
  | iot
  | other (s : GoString)
deriving DecidableEq

/-- `model.Asset`, the members that are read here. -/
structure Asset where
  name : GoString
  type : AssetType
  riskLevel : GoString

/-- `model.ExposureScore`, without its dates. `FixStatus` has the text of the vulnerability's. -/
structure ExposureScore where
  tenantID : GoString
  assetID : GoString := []
  assetName : GoString := []
  cveID : GoString
  cvssScore : Float64
  priorityScore : Float64 := ⟨0⟩
  inWildFactor : Float64
  reachabilityFactor : Float64 := .c1
  assetImportanceFactor : Float64 := .c1
  fixStatus : GoString

/-- What a score is looked up by. -/
def ExposureScore.pair (s : ExposureScore) : GoString × GoString := (s.assetID, s.cveID)

/-! ### The vulnerabilities -/

/-- `VulnerabilityListFilter` -/
structure VulnerabilityListFilter where
  tenantID : GoString := []
  severity : GoString := []
  fixStatus : GoString := []
  assetID : GoString := []
  keyword : GoString := []
  page : ℤ := 0
  pageSize : ℤ := 0
  sortBy : GoString := []
  sortDesc : Bool := false

/-- The filter of a keyword. -/
def keywordText : String :=
  "(CONTAINS(LOWER(doc.title), LOWER(@kw)) OR CONTAINS(LOWER(doc.cve_id), LOWER(@kw)))"

/-- The options `VulnerabilityRepo.List` hands to `FindPaged`. -/
def VulnerabilityListFilter.toList (f : VulnerabilityListFilter) : ListOptions Vulnerability where
  collection := str "vulnerabilities"
  filters :=
    tenantFilter (·.tenantID) f.tenantID ++
      equalFilter "doc.severity == @severity" (f.severity ≠ []) (·.severity = f.severity) ++
      equalFilter "doc.fix_status == @fixStatus" (f.fixStatus ≠ [])
        (·.fixStatus.text = f.fixStatus) ++
      equalFilter "@asset_id IN doc.affected_assets" (f.assetID ≠ [])
        (·.affectedAssets.contains f.assetID) ++
      equalFilter keywordText (f.keyword ≠ [])
        (fun v => containsLower v.title f.keyword || containsLower v.cveID f.keyword)
  bindVars :=
    bindIf "kw" (f.keyword ≠ []) (.str f.keyword) <|
      bindIf "asset_id" (f.assetID ≠ []) (.str f.assetID) <|
      bindIf "fixStatus" (f.fixStatus ≠ []) (.str f.fixStatus) <|
      bindIf "severity" (f.severity ≠ []) (.str f.severity) <|
      bindIf "tenantID" (f.tenantID ≠ []) (.str f.tenantID) ∅
  sortBy := f.sortBy
  sortDesc := f.sortDesc
  page := f.page
  pageSize := f.pageSize

/-- A vulnerability that `RecalcAll` does not skip. -/
def Vulnerability.isOpen (v : Vulnerability) : Bool :=
  !(v.fixStatus = .fixed || v.fixStatus = .accepted)

/-- The assets a vulnerability is scored for: one without a name where it affects none. -/
def Vulnerability.targets (v : Vulnerability) : List GoString :=
  if v.affectedAssetIDs = [] then [[]] else v.affectedAssetIDs

/-! ### A score -/

/-- The collections `RecalcAll` works on. -/
structure ExposureDb where
  vulns : DBCollection Vulnerability
  /-- `AssetRepo.GetByID`, without what it fails with. -/
  assets : GoString → Option Asset
  scores : List ExposureScore

/-- How important an asset is. -/
def assetImportance : Option Asset → Float64
  | none => .c1
  | some asset =>
    if asset.riskLevel = str "critical" then .c2
    else if asset.riskLevel = str "high" then .c1_5
    else if asset.riskLevel = str "medium" then .c1_2 else .c1

/-- How reachable an asset is. -/
def reachability : Option Asset → Float64
  | none => .c1
  | some asset => if asset.type = .network ∨ asset.type = .cloud then .c1_8 else .c1

variable (ops : FloatOps)

/-- What `CalcPriorityScore` sets. -/
def calcPriority (s : ExposureScore) : ExposureScore :=
  let score := ops.mul (ops.mul (ops.mul s.cvssScore s.inWildFactor) s.reachabilityFactor)
    s.assetImportanceFactor
  { s with priorityScore := if Float64.lt .c100 score then .c100 else score }

/-- The score of a vulnerability and an asset. Without an asset ID none is read. -/
def scoreOf (assets : GoString → Option Asset) (tenantID : GoString) (v : Vulnerability)
    (assetID : GoString) : ExposureScore :=
  let asset := if v.affectedAssetIDs = [] then none else assets assetID
  calcPriority ops {
    tenantID
    assetID
    assetName := (asset.map (·.name)).getD []
    cveID := v.cveID
    cvssScore := v.cvssScore
    inWildFactor := if v.exploitedInWild then .c1_5 else .c1
    reachabilityFactor := reachability asset
    assetImportanceFactor := assetImportance asset
    fixStatus := v.fixStatus.text }

/-- The scores `RecalcAll` writes for a list of vulnerabilities. -/
def scoresOf (assets : GoString → Option Asset) (tenantID : GoString) (vs : List Vulnerability) :
    List ExposureScore :=
  (vs.filter (·.isOpen)).flatMap fun v => v.targets.map (scoreOf ops assets tenantID v)

/-! ### The store of scores -/

/-- What the patch of `Upsert` sets. -/
def patchScore (score existing : ExposureScore) : ExposureScore :=
  { existing with
    priorityScore := score.priorityScore
    inWildFactor := score.inWildFactor
    reachabilityFactor := score.reachabilityFactor
    assetImportanceFactor := score.assetImportanceFactor }

/-- `ExposureScoreRepo.Upsert`: the first score for the asset and the vulnerability is patched,
and without one the score is created. Next to the scores comes the one that is written. -/
def upsert (score : ExposureScore) : List ExposureScore → List ExposureScore × ExposureScore
  | [] => ([score], score)
  | d :: ds =>
    if d.pair = score.pair then (patchScore score d :: ds, patchScore score d)
    else (d :: (upsert score ds).1, (upsert score ds).2)

/-- One `Upsert` after the other, and what they write. -/
def writeAll : List ExposureScore → List ExposureScore → List ExposureScore × List ExposureScore
  | ds, [] => (ds, [])
  | ds, s :: ss =>
    ((writeAll (upsert s ds).1 ss).1, (upsert s ds).2 :: (writeAll (upsert s ds).1 ss).2)

/-- `ExposureService.RecalcAll`: the scores behind it, and what it writes. -/
def recalcAll (db : ExposureDb) (tenantID : GoString) :
    Except GoString (List ExposureScore × List ExposureScore) :=
  match findPaged db.vulns
      (VulnerabilityListFilter.toList { tenantID, pageSize := 10000, page := 1 }) with
  | .error err => .error err
  | .ok (vulns, _) => .ok (writeAll db.scores (scoresOf ops db.assets tenantID vulns))

/-! ### Whose score is written -/

/-- The tenant a score for a pair is written to, where a new one is for the tenant. -/
def ownerOf (tenantID : GoString) (ds : List ExposureScore) (p : GoString × GoString) : GoString :=
  ((ds.find? fun d => d.pair = p).map (·.tenantID)).getD tenantID

theorem ownerOf_eq_iff {tenantID : GoString} {ds : List ExposureScore} {p : GoString × GoString} :
    ownerOf tenantID ds p = tenantID ↔
      ∀ s, ds.find? (fun d => d.pair = p) = some s → s.tenantID = tenantID := by
  rw [ownerOf]
  cases ds.find? (fun d => d.pair = p) with
  | none => simp
  | some s => simp

theorem ownerOf_cons (tenantID : GoString) (d : ExposureScore) (ds : List ExposureScore)
    (p : GoString × GoString) :
    ownerOf tenantID (d :: ds) p = if d.pair = p then d.tenantID else ownerOf tenantID ds p := by
  rw [ownerOf, List.find?_cons]
  by_cases h : d.pair = p
  · simp [h]
  · simp [h, ownerOf]

/-- What an upsert writes. -/
theorem upsert_written (score : ExposureScore) (ds : List ExposureScore) :
    (upsert score ds).2.pair = score.pair ∧
      (upsert score ds).2.tenantID = ownerOf score.tenantID ds score.pair := by
  induction ds with
  | nil => exact ⟨rfl, rfl⟩
  | cons d ds ih =>
    rw [ownerOf_cons, upsert]
    by_cases h : d.pair = score.pair
    · rw [if_pos h, if_pos h]
      exact ⟨h, rfl⟩
    · rw [if_neg h, if_neg h]
      exact ih

/-- An upsert gives no pair to another tenant. -/
theorem ownerOf_upsert (score : ExposureScore) (ds : List ExposureScore) (p : GoString × GoString) :
    ownerOf score.tenantID (upsert score ds).1 p = ownerOf score.tenantID ds p := by
  induction ds with
  | nil =>
    rw [upsert, ownerOf_cons]
    exact ite_self _
  | cons d ds ih =>
    rw [upsert]
    by_cases h : d.pair = score.pair
    · rw [if_pos h, ownerOf_cons, ownerOf_cons]
      rfl
    · rw [if_neg h, ownerOf_cons, ownerOf_cons, ih]

/-- **Which pairs get a score of the tenant**: those that are written, where no other tenant has
one already. -/
theorem writeAll_iff {tenantID : GoString} {p : GoString × GoString} {ss : List ExposureScore}
    (hss : ∀ s ∈ ss, s.tenantID = tenantID) :
    ∀ {ds : List ExposureScore},
      (∃ w ∈ (writeAll ds ss).2, w.tenantID = tenantID ∧ w.pair = p) ↔
        (∃ s ∈ ss, s.pair = p) ∧ ownerOf tenantID ds p = tenantID := by
  induction ss with
  | nil =>
    intro ds
    simp [writeAll]
  | cons s ss ih =>
    intro ds
    obtain ⟨rfl, hrest⟩ := List.forall_mem_cons.mp hss
    obtain ⟨hpair, htenant⟩ := upsert_written s ds
    have hhead : (∃ w ∈ (writeAll ds (s :: ss)).2, w.tenantID = s.tenantID ∧ w.pair = p) ↔
        ((upsert s ds).2.tenantID = s.tenantID ∧ (upsert s ds).2.pair = p) ∨
          ∃ w ∈ (writeAll (upsert s ds).1 ss).2, w.tenantID = s.tenantID ∧ w.pair = p :=
      List.exists_mem_cons_iff ..
    rw [hhead, ih hrest, ownerOf_upsert, hpair, htenant, List.exists_mem_cons_iff, or_and_right]
    refine or_congr_left ?_
    constructor
    · rintro ⟨howner, rfl⟩
      exact ⟨rfl, howner⟩
    · rintro ⟨rfl, howner⟩
      exact ⟨howner, rfl⟩

end Identity

end Xsiam
