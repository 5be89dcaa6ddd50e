import Xsiam.Lib.ExchangeSort
import Xsiam.Repository.LogEntries

/-!
# The list of risks

`RiskService.List` of `internal/domain/identity/service.go`: the risks of a tenant are collected from a
map, in whatever order it has them in that moment, sorted by their scores, and cut to a page.

Each page on its own is in the order of the scores. But risks with one score can be in another order for
the next page, so that one of them is on both and another on none, if the end of a page is between them.
And the bounds of a page are computed in 64 bits, without a check: where the first does not fit it is
negative, and where the second does not it is before the first, and the call panics. So the pages up to
one are what they should be exactly if its bounds fit, and the scores fall at the end of every page before
it (`Xsiam.Identity.pagesWell_iff`).
-/

namespace Xsiam

namespace Identity

open Go Repository Paging

/-! ### The list -/

/-- `model.IdentityRisk`, the members that are read here. A score is a sum of numbers, and is one. -/
structure IdentityRisk where
  userID : GoString
  tenantID : GoString
  username : GoString
  riskScore : Float64
  number : riskScore.isNaN = false
deriving DecidableEq

/-- The risks in the map, which has them by their users. -/
structure RiskStore where
  risks : List IdentityRisk
  users : (risks.map (·.userID)).Nodup

/-- A risk that `List` collects. -/
def IdentityRisk.listed (tenantID keyword : GoString) (r : IdentityRisk) : Bool :=
  r.tenantID = tenantID &&
    (keyword = [] || containsLower r.username keyword || containsLower r.userID keyword)

/-- The comparison of the sort: what is behind is greater. -/
def scoreBelow (r r' : IdentityRisk) : Bool := r.riskScore.lt r'.riskScore

/-- The risks that are collected, sorted. -/
def ranking (order : List IdentityRisk) (tenantID keyword : GoString) : List IdentityRisk :=
  ExchangeSort.sort scoreBelow (order.filter (·.listed tenantID keyword))

/-- The size of a page. -/
def sizeOrDefault (pageSize : Int64) : Int64 := if pageSize ≤ 0 then 20 else pageSize

/-- The page, from one. -/
def pageOrFirst (page : Int64) : Int64 := if page ≤ 0 then 1 else page

/-- `RiskService.List`, for an order in which the map is traversed. Without an answer it panics. -/
def riskList (order : List IdentityRisk) (tenantID keyword : GoString) (page pageSize : Int64) :
    Option (List IdentityRisk × PageMeta) :=
  let risks := ranking order tenantID keyword
  let total : ℤ := risks.length
  let pageSize := sizeOrDefault pageSize
  let page := pageOrFirst page
  let start := (page - 1) * pageSize
  let stop := start + pageSize
  if total ≤ start.toInt then some ([], ⟨total, page.toInt, pageSize.toInt, 0⟩)
  else
    let stop := if total < stop.toInt then total else stop.toInt
    let pages := (Int64.ofInt total + pageSize - 1) / pageSize
    -- the bounds of the slice are checked when it is cut
    if 0 ≤ start.toInt ∧ start.toInt ≤ stop then
      some ((risks.take stop.toNat).drop start.toInt.toNat,
        ⟨total, page.toInt, pageSize.toInt, pages.toInt⟩)
    else none

/-! ### What it should be -/

/-- What a risk is sorted by. -/
def IdentityRisk.score (r : IdentityRisk) : ℤ := r.riskScore.key

/-- The number of a page, and the number of risks on it. -/
def pageNumber (page : Int64) : ℕ := (pageOrFirst page).toInt.toNat

def pageLength (pageSize : Int64) : ℕ := (sizeOrDefault pageSize).toInt.toNat

/-- The pages up to one: each call returns, also the one with the page as it was asked for, each page is in
the order of the scores, no risk is on two of them or twice on one, and if there is room for all risks that
are listed, all are on them. -/
structure PagesWell (s : RiskStore) (tenantID keyword : GoString) (page pageSize : Int64)
    (orders : ℕ → List IdentityRisk) (pages : ℕ → List IdentityRisk) : Prop where
  returns : ∀ k < pageNumber page, ∃ pageMeta,
    riskList (orders k) tenantID keyword (Int64.ofNat (k + 1)) pageSize = some (pages k, pageMeta)
  asked : ∃ pageMeta, riskList (orders (pageNumber page - 1)) tenantID keyword page pageSize =
    some (pages (pageNumber page - 1), pageMeta)
  sorted : ∀ k < pageNumber page, (pages k).Pairwise fun r r' => r'.riskScore.le r.riskScore = true
  once : ((List.range (pageNumber page)).flatMap pages).Nodup
  all : (s.risks.filter (·.listed tenantID keyword)).length ≤ pageNumber page * pageLength pageSize →
    ∀ r ∈ s.risks, r.listed tenantID keyword = true → r ∈ (List.range (pageNumber page)).flatMap pages

/-- The bounds of the pages up to one fit, and the scores fall at the end of each of them that has risks
behind it. -/
structure Pageable (s : RiskStore) (tenantID keyword : GoString) (page pageSize : Int64) : Prop where
  start : (pageNumber page - 1) * pageLength pageSize < 2 ^ 63
  stop : pageNumber page * pageLength pageSize < 2 ^ 63 ∨
    (s.risks.filter (·.listed tenantID keyword)).length ≤
      (pageNumber page - 1) * pageLength pageSize
  falls : ∀ k, 0 < k → k < pageNumber page →
    k * pageLength pageSize < (s.risks.filter (·.listed tenantID keyword)).length →
    Falls IdentityRisk.score (k * pageLength pageSize) (s.risks.filter (·.listed tenantID keyword))

/-! ### One call -/

section Call

variable {order : List IdentityRisk} {tenantID keyword : GoString} {page pageSize : Int64}

theorem toInt_sizeOrDefault (pageSize : Int64) :
    (sizeOrDefault pageSize).toInt = pageLength pageSize ∧ 0 < pageLength pageSize ∧
      pageLength pageSize < 2 ^ 63 := by
  have hpos : 0 < (sizeOrDefault pageSize).toInt := by
    rw [sizeOrDefault]
    split_ifs with hle
    · decide
    · exact Int64.lt_iff_toInt_lt.mp (Int64.not_le.mp hle)
  have hlt := (sizeOrDefault pageSize).toInt_lt
  rw [pageLength]
  omega

theorem toInt_pageOrFirst (page : Int64) :
    (pageOrFirst page).toInt = pageNumber page ∧ 0 < pageNumber page ∧ pageNumber page < 2 ^ 63 := by
  have hpos : 0 < (pageOrFirst page).toInt := by
    rw [pageOrFirst]
    split_ifs with hle
    · decide
    · exact Int64.lt_iff_toInt_lt.mp (Int64.not_le.mp hle)
  have hlt := (pageOrFirst page).toInt_lt
  rw [pageNumber]
  omega

/-- A page that is asked for by its number. -/
theorem pageNumber_ofNat {k : ℕ} (hk : k + 1 < 2 ^ 63) : pageNumber (Int64.ofNat (k + 1)) = k + 1 := by
  have htoInt : (Int64.ofNat (k + 1)).toInt = (k + 1 : ℕ) := Int64.toInt_ofNat_of_lt hk
  have hpos : ¬Int64.ofNat (k + 1) ≤ 0 := by
    rw [Int64.le_iff_toInt_le, htoInt, Int64.toInt_zero]
    omega
  rw [pageNumber, pageOrFirst, if_neg hpos, htoInt, Int.toNat_natCast]

/-- The bounds of a page, before they are compared with the number of risks. -/
theorem toInt_start (page pageSize : Int64) :
    ((pageOrFirst page - 1) * sizeOrDefault pageSize).toInt =
      (((pageNumber page - 1) * pageLength pageSize : ℕ) : ℤ).bmod (2 ^ 64) := by
  obtain ⟨hpage, hpos, hlt⟩ := toInt_pageOrFirst page
  have hsub : (pageOrFirst page - 1).toInt = (pageNumber page - 1 : ℕ) := by
    rw [Int64.toInt_sub, hpage, Int64.toInt_one, Int.bmod_eq_of_le_mul_two (by omega) (by omega)]
    omega
  rw [Int64.toInt_mul, hsub, (toInt_sizeOrDefault pageSize).1, Nat.cast_mul]

theorem toInt_stop {start : Int64} {a : ℕ} (hstart : start.toInt = a) (pageSize : Int64) :
    (start + sizeOrDefault pageSize).toInt = ((a + pageLength pageSize : ℕ) : ℤ).bmod (2 ^ 64) := by
  rw [Int64.toInt_add, hstart, (toInt_sizeOrDefault pageSize).1, Nat.cast_add]

theorem bmod_of_fits {a : ℕ} (h : a < 2 ^ 63) : (a : ℤ).bmod (2 ^ 64) = a :=
  Int.bmod_eq_of_le_mul_two (by omega) (by omega)

/-- A number that does not fit becomes negative. -/
theorem bmod_neg_of_large {a : ℕ} (h : 2 ^ 63 ≤ a) (h' : a < 2 ^ 64) : (a : ℤ).bmod (2 ^ 64) < 0 := by
  have hmod : (a : ℤ).bmod (2 ^ 64) = a - 2 ^ 64 := by
    rw [← Int.sub_bmod_right]
    exact Int.bmod_eq_of_le_mul_two (by omega) (by omega)
  omega

/-- The page behind those before it. -/
theorem pageNumber_mul (page : Int64) (size : ℕ) :
    pageNumber page * size = (pageNumber page - 1) * size + size := by
  have hpos := (toInt_pageOrFirst page).2.1
  rw [← Nat.succ_mul, Nat.succ_eq_add_one, Nat.sub_add_cancel hpos]

/-- **A page whose bounds fit is the part of the ranking that it should be.** -/
theorem riskList_page (hstart : (pageNumber page - 1) * pageLength pageSize < 2 ^ 63)
    (hstop : pageNumber page * pageLength pageSize < 2 ^ 63 ∨
      (ranking order tenantID keyword).length ≤ (pageNumber page - 1) * pageLength pageSize) :
    ∃ pageMeta, riskList order tenantID keyword page pageSize =
      some (Paging.page (pageLength pageSize) (pageNumber page - 1) (ranking order tenantID keyword),
        pageMeta) := by
  have hsize := (toInt_sizeOrDefault pageSize).2.1
  have hfirst := toInt_start page pageSize
  rw [bmod_of_fits hstart] at hfirst
  have hlast := toInt_stop hfirst pageSize
  rw [pageNumber_mul] at hstop
  have hnil := Paging.page_eq_nil_iff hsize (pageNumber page - 1) (ranking order tenantID keyword)
  rw [riskList, Paging.page] at *
  simp only [hfirst, hlast]
  generalize (pageNumber page - 1) * pageLength pageSize = a at *
  generalize ranking order tenantID keyword = risks at *
  by_cases hle : (risks.length : ℤ) ≤ a
  · rw [if_pos hle, hnil.mpr (by omega)]
    exact ⟨_, rfl⟩
  · -- the page starts within the list, so its end fits a word as well
    rw [if_neg hle, bmod_of_fits (by omega)]
    have hbounds : 0 ≤ (a : ℤ) ∧ (a : ℤ) ≤
        if (risks.length : ℤ) < (a + pageLength pageSize : ℕ) then (risks.length : ℤ)
        else (a + pageLength pageSize : ℕ) := by
      split_ifs <;> omega
    rw [if_pos hbounds, Int.toNat_natCast]
    refine ⟨_, congrArg some (Prod.ext ?_ rfl)⟩
    dsimp only
    rw [List.drop_take]
    split_ifs with hshort
    · -- the page is not full
      rw [List.take_of_length_le, List.take_of_length_le]
      · rw [List.length_drop]
        omega
      · rw [List.length_drop]
        omega
    · rw [Int.toNat_natCast, Nat.add_sub_cancel_left]

/-- **Where the first bound does not fit, the call panics**, whatever is listed. -/
theorem riskList_none_of_start (hstart : 2 ^ 63 ≤ (pageNumber page - 1) * pageLength pageSize)
    (hwrap : (pageNumber page - 1) * pageLength pageSize < 2 ^ 64) :
    riskList order tenantID keyword page pageSize = none := by
  have hneg := bmod_neg_of_large hstart hwrap
  rw [← toInt_start] at hneg
  rw [riskList]
  dsimp only
  rw [if_neg (by omega), if_neg (by omega)]

/-- **And where the second does not, if there are risks on the page.** -/
theorem riskList_none_of_stop (hstart : (pageNumber page - 1) * pageLength pageSize < 2 ^ 63)
    (hstop : 2 ^ 63 ≤ pageNumber page * pageLength pageSize)
    (hrisks : (pageNumber page - 1) * pageLength pageSize < (ranking order tenantID keyword).length) :
    riskList order tenantID keyword page pageSize = none := by
  have hsize := (toInt_sizeOrDefault pageSize).2.2
  have hfirst := toInt_start page pageSize
  rw [bmod_of_fits hstart] at hfirst
  rw [pageNumber_mul] at hstop
  have hneg := bmod_neg_of_large hstop (by omega)
  rw [← toInt_stop hfirst] at hneg
  rw [riskList]
  dsimp only
  rw [if_neg (by omega), if_neg (by omega)]

/-- What is returned is the part of the ranking, where the first bound fits. -/
theorem eq_page_of_riskList {risks : List IdentityRisk} {pageMeta : PageMeta}
    (hstart : (pageNumber page - 1) * pageLength pageSize < 2 ^ 63)
    (h : riskList order tenantID keyword page pageSize = some (risks, pageMeta)) :
    risks = Paging.page (pageLength pageSize) (pageNumber page - 1) (ranking order tenantID keyword) := by
  by_cases hstop : pageNumber page * pageLength pageSize < 2 ^ 63 ∨
      (ranking order tenantID keyword).length ≤ (pageNumber page - 1) * pageLength pageSize
  · obtain ⟨_, hpage⟩ := riskList_page hstart hstop
    rw [hpage] at h
    exact (Prod.mk.inj (Option.some.inj h)).1.symm
  · obtain ⟨hlarge, hrisks⟩ := not_or.mp hstop
    rw [riskList_none_of_stop hstart (not_lt.mp hlarge) (not_le.mp hrisks)] at h
    cases h

end Call

/-! ### Whatever the orders are -/

section Orders

variable {s : RiskStore} {tenantID keyword : GoString} {page pageSize : Int64}

theorem scoreBelow_iff (r r' : IdentityRisk) : scoreBelow r r' = true ↔ r.score < r'.score := by
  rw [scoreBelow, Float64.lt, r.number, r'.number]
  simp [IdentityRisk.score]

theorem le_score_iff (r r' : IdentityRisk) :
    r'.riskScore.le r.riskScore = true ↔ r'.score ≤ r.score := by
  rw [Float64.le, r.number, r'.number]
  simp [IdentityRisk.score]

theorem ranked_ranking (order : List IdentityRisk) (tenantID keyword : GoString) :
    Ranked IdentityRisk.score (ranking order tenantID keyword) :=
  ExchangeSort.ranked_sort scoreBelow_iff _

theorem ranking_perm {order : List IdentityRisk} (h : order.Perm s.risks) (tenantID keyword : GoString) :
    (ranking order tenantID keyword).Perm (s.risks.filter (·.listed tenantID keyword)) :=
  (ExchangeSort.sort_perm scoreBelow _).trans (h.filter _)

/-- A ranking that is in order can be what is sorted. -/
theorem exists_ranking {risks : List IdentityRisk} (hranked : Ranked IdentityRisk.score risks)
    (hperm : risks.Perm (s.risks.filter (·.listed tenantID keyword))) :
    ∃ order, order.Perm s.risks ∧ ranking order tenantID keyword = risks := by
  refine ⟨risks ++ s.risks.filter fun r => !r.listed tenantID keyword, ?_, ?_⟩
  · exact (hperm.append_right _).trans (List.filter_append_perm _ _)
  · have hlisted : risks.filter (·.listed tenantID keyword) = risks :=
      List.filter_eq_self.mpr fun r hr => (List.mem_filter.mp (hperm.mem_iff.mp hr)).2
    have hrest : (s.risks.filter fun r => !r.listed tenantID keyword).filter
        (·.listed tenantID keyword) = [] := by
      rw [List.filter_filter]
      simp
    rw [ranking, List.filter_append, hlisted, hrest, List.append_nil]
    exact ExchangeSort.sort_of_ranked scoreBelow_iff hranked

/-- A call for a page by its number. -/
theorem pageNumber_sub_one {k : ℕ} (hk : k + 1 < 2 ^ 63) : pageNumber (Int64.ofNat (k + 1)) - 1 = k := by
  rw [pageNumber_ofNat hk, Nat.add_sub_cancel]

/-- Each user has one risk. -/
theorem RiskStore.nodup (s : RiskStore) : s.risks.Nodup := .of_map _ s.users

/-- **Pages whose bounds fit, and at whose ends the scores fall, are what they should be.** -/
theorem Pageable.pagesWell (h : Pageable s tenantID keyword page pageSize)
    {orders : ℕ → List IdentityRisk} (horders : ∀ k, (orders k).Perm s.risks) :
    PagesWell s tenantID keyword page pageSize orders
      fun k => Paging.page (pageLength pageSize) k (ranking (orders k) tenantID keyword) := by
  obtain ⟨-, hpos, hlt⟩ := toInt_pageOrFirst page
  have hperm : ∀ k, (ranking (orders k) tenantID keyword).Perm
      (s.risks.filter (·.listed tenantID keyword)) := fun k => ranking_perm (horders k) tenantID keyword
  have hstart : ∀ k < pageNumber page, k * pageLength pageSize < 2 ^ 63 := fun k hk =>
    (Nat.mul_le_mul_right _ (Nat.le_sub_one_of_lt hk)).trans_lt h.start
  have hstop : ∀ k < pageNumber page, (k + 1) * pageLength pageSize < 2 ^ 63 ∨
      (ranking (orders k) tenantID keyword).length ≤ k * pageLength pageSize := by
    intro k hk
    rcases Nat.lt_or_eq_of_le (Nat.succ_le_of_lt hk) with hbefore | hlast
    · exact .inl (hstart (k + 1) hbefore)
    · have hk' : k = pageNumber page - 1 := by omega
      rw [(hperm k).length_eq, hk', Nat.sub_add_cancel hpos]
      exact h.stop
  have hunion := flatMap_page_perm (fun k => ranked_ranking (orders k) tenantID keyword) hperm h.falls
    (pageNumber page - 1) (Nat.sub_lt hpos Nat.one_pos)
  rw [Nat.sub_add_cancel hpos] at hunion
  refine ⟨fun k hk => ?_, ?_, fun k hk => ?_, ?_, fun hroom r hr hlisted => ?_⟩
  · have hnumber : pageNumber (Int64.ofNat (k + 1)) = k + 1 := pageNumber_ofNat (by omega)
    have hcall := @riskList_page (orders k) tenantID keyword (Int64.ofNat (k + 1)) pageSize
    rw [hnumber, Nat.add_sub_cancel] at hcall
    exact hcall (hstart k hk) (hstop k hk)
  · refine riskList_page h.start ?_
    rw [(hperm _).length_eq]
    exact h.stop
  · refine ((ranked_ranking (orders k) tenantID keyword).sublist (page_sublist _ _ _)).imp ?_
    exact fun hle => (le_score_iff _ _).mpr hle
  · refine hunion.nodup_iff.mpr (List.Sublist.nodup (List.take_sublist _ _) ?_)
    exact (hperm _).nodup_iff.mpr (s.nodup.filter _)
  · rw [hunion.mem_iff, List.take_of_length_le ((hperm _).length_eq.trans_le hroom), (hperm _).mem_iff]
    exact List.mem_filter.mpr ⟨hr, hlisted⟩

/-- Where the bound of a page does not fit, there is a page up to it whose call panics. -/
theorem exists_panic (hlarge : 2 ^ 63 ≤ (pageNumber page - 1) * pageLength pageSize)
    (order : List IdentityRisk) (tenantID keyword : GoString) :
    ∃ k < pageNumber page, riskList order tenantID keyword (Int64.ofNat (k + 1)) pageSize = none := by
  obtain ⟨-, hpos, hlt⟩ := toInt_pageOrFirst page
  have hsize := (toInt_sizeOrDefault pageSize).2.2
  -- the first page whose bound does not fit
  have hexists : ∃ k, 2 ^ 63 ≤ k * pageLength pageSize := ⟨_, hlarge⟩
  have hle := Nat.find_min' hexists hlarge
  have hspec := Nat.find_spec hexists
  have hmin := fun j => Nat.find_min (m := j) hexists
  generalize Nat.find hexists = k at *
  have hone : k ≠ 0 := by
    rintro rfl
    rw [Nat.zero_mul] at hspec
    exact absurd hspec (by decide)
  have hbefore : ¬2 ^ 63 ≤ (k - 1) * pageLength pageSize := hmin (k - 1) (by omega)
  have hmul : k * pageLength pageSize = (k - 1) * pageLength pageSize + pageLength pageSize := by
    rw [← Nat.succ_mul, Nat.succ_eq_add_one, Nat.sub_add_cancel (Nat.pos_of_ne_zero hone)]
  refine ⟨k, by omega, riskList_none_of_start ?_ ?_⟩
  · rwa [pageNumber_sub_one (by omega)]
  · rw [pageNumber_sub_one (by omega)]
    omega

/-- **Pages that are what they should be, whatever the orders are, have bounds that fit and scores that
fall at their ends.** -/
theorem pageable_of_pagesWell (h : ∀ orders : ℕ → List IdentityRisk, (∀ k, (orders k).Perm s.risks) →
    ∃ pages, PagesWell s tenantID keyword page pageSize orders pages) :
    Pageable s tenantID keyword page pageSize := by
  obtain ⟨-, hpos, hlt⟩ := toInt_pageOrFirst page
  obtain ⟨pages, hpages⟩ := h (fun _ => s.risks) fun _ => .refl _
  have hperm := ranking_perm (List.Perm.refl s.risks) tenantID keyword
  have hstart : (pageNumber page - 1) * pageLength pageSize < 2 ^ 63 := by
    by_contra hlarge
    obtain ⟨k, hk, hnone⟩ := exists_panic (not_lt.mp hlarge) s.risks tenantID keyword
    obtain ⟨_, hsome⟩ := hpages.returns k hk
    rw [hnone] at hsome
    cases hsome
  refine ⟨hstart, ?_, fun k hk hkn hrisks => ?_⟩
  · by_contra hboth
    obtain ⟨hlarge, hrisks⟩ := not_or.mp hboth
    rw [← hperm.length_eq] at hrisks
    obtain ⟨_, hsome⟩ := hpages.asked
    rw [riskList_none_of_stop hstart (not_lt.mp hlarge) (not_le.mp hrisks)] at hsome
    cases hsome
  · by_contra hfalls
    have hsize := (toInt_sizeOrDefault pageSize).2.1
    rw [← hperm.length_eq] at hrisks
    obtain ⟨a, b, before, after, hranking, hbefore, hranked⟩ := exists_exchanged
      (ranked_ranking s.risks tenantID keyword) (Nat.mul_pos hk hsize) hrisks
      fun hfall => hfalls (hfall.of_perm hperm)
    -- another order, in which `a` and `b` are exchanged
    have hswap : (before ++ b :: a :: after).Perm (s.risks.filter (·.listed tenantID keyword)) := by
      refine ((List.Perm.swap a b after).append_left before).trans ?_
      rw [← hranking]
      exact hperm
    obtain ⟨order, horder, hother⟩ := exists_ranking hranked hswap
    obtain ⟨pages', hpages'⟩ := h (fun j => if j = k then order else s.risks) fun j => by
      split_ifs
      · exact horder
      · exact .refl _
    have hpage : ∀ j < pageNumber page, pages' j = Paging.page (pageLength pageSize) j
        (ranking (if j = k then order else s.risks) tenantID keyword) := by
      intro j hj
      obtain ⟨_, hsome⟩ := hpages'.returns j hj
      have hfits := (Nat.mul_le_mul_right (pageLength pageSize) (Nat.le_sub_one_of_lt hj)).trans_lt hstart
      have heq := eq_page_of_riskList (by rwa [pageNumber_sub_one (by omega)]) hsome
      rwa [pageNumber_sub_one (by omega)] at heq
    have hmul : k * pageLength pageSize = (k - 1) * pageLength pageSize + pageLength pageSize := by
      rw [← Nat.succ_mul, Nat.succ_eq_add_one, Nat.sub_add_cancel hk]
    have hlast : a ∈ pages' (k - 1) := by
      rw [hpage (k - 1) (by omega), if_neg (by omega), hranking]
      refine mem_page (i := pageLength pageSize - 1) ?_ (by omega)
      rw [show (k - 1) * pageLength pageSize + (pageLength pageSize - 1) = before.length by omega,
        List.getElem?_append_right le_rfl, Nat.sub_self, List.getElem?_cons_zero]
    have hfirst : a ∈ pages' k := by
      rw [hpage k hkn, if_pos rfl, hother]
      refine mem_page (i := 0) ?_ hsize
      rw [Nat.add_zero, ← hbefore, List.getElem?_append_right (Nat.le_succ _), Nat.succ_sub le_rfl,
        Nat.sub_self, List.getElem?_cons_succ, List.getElem?_cons_zero]
    -- so the risk is on two pages
    have hdisjoint := (List.nodup_flatMap.mp hpages'.once).2
    rw [List.pairwise_iff_getElem] at hdisjoint
    have hpair := hdisjoint (k - 1) k (by rw [List.length_range]; omega) (by rw [List.length_range]; omega)
      (by omega)
    rw [List.getElem_range, List.getElem_range] at hpair
    exact hpair hlast hfirst

end Orders

/-- **Which pages are what they should be, in whatever orders the map is traversed.** -/
theorem pagesWell_iff (s : RiskStore) (tenantID keyword : GoString) (page pageSize : Int64) :
    (∀ orders : ℕ → List IdentityRisk, (∀ k, (orders k).Perm s.risks) →
      ∃ pages, PagesWell s tenantID keyword page pageSize orders pages) ↔
      Pageable s tenantID keyword page pageSize :=
  ⟨pageable_of_pagesWell, fun h _ horders => ⟨_, h.pagesWell horders⟩⟩

/-- A user with a score of 50. -/
def riskOf (userID : String) : IdentityRisk :=
  ⟨str userID, str "t1", str userID, ⟨0x4049000000000000⟩, by decide⟩

/-- Two users with one score. -/
def twoRisks : RiskStore := ⟨[riskOf "ann", riskOf "bob"], by decide⟩

/-- **The second page can have the risk of the first**, and a page that is far away panics, even without
any risks. -/
theorem not_pagesWell :
    (¬∀ orders : ℕ → List IdentityRisk, (∀ k, (orders k).Perm twoRisks.risks) →
      ∃ pages, PagesWell twoRisks (str "t1") [] 2 1 orders pages) ∧
    riskList [] (str "t1") [] 3 9223372036854775807 = none := by
  refine ⟨fun h => ?_, by decide +kernel⟩
  obtain ⟨pages, hpages⟩ := h (fun k => if k = 0 then [riskOf "ann", riskOf "bob"]
      else [riskOf "bob", riskOf "ann"]) fun k => by
    split_ifs
    · exact .refl _
    · exact .swap _ _ _
  have hfirst : (riskList [riskOf "ann", riskOf "bob"] (str "t1") [] (Int64.ofNat (0 + 1)) 1).map Prod.fst =
      some [riskOf "ann"] := by decide +kernel
  have hsecond : (riskList [riskOf "bob", riskOf "ann"] (str "t1") [] (Int64.ofNat (1 + 1)) 1).map Prod.fst =
      some [riskOf "ann"] := by decide +kernel
  obtain ⟨_, hzero⟩ := hpages.returns 0 (by decide +kernel)
  obtain ⟨_, hone⟩ := hpages.returns 1 (by decide +kernel)
  rw [if_pos rfl] at hzero
  rw [if_neg (by decide)] at hone
  rw [hzero] at hfirst
  rw [hone] at hsecond
  have hpage₀ : pages 0 = [riskOf "ann"] := Option.some.inj hfirst
  have hpage₁ : pages 1 = [riskOf "ann"] := Option.some.inj hsecond
  have honce := hpages.once
  rw [show pageNumber 2 = 2 by decide +kernel] at honce
  simp [List.range_succ, hpage₀, hpage₁] at honce

end Identity

end Xsiam
