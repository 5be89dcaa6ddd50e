import Mathlib.Algebra.Order.Floor.Div
import Xsiam.Lib.Paging
import Xsiam.Repository.FindPaged

/-!
# All pages of a collection

What `FindPaged` of `internal/repository/base.go` answers for every page: the part of the documents that
is on it, how many documents there are, and how many pages (`Xsiam.Repository.findPaged_exact`). So the
pages, one behind the other, are all documents that match (`Xsiam.Repository.flatMap_findPaged`).

The offset is computed in 64 bits. Where it does not fit there is no document to return; but the database
is asked for the offset that is left of it, and answers with an error or with documents of another page,
unless that offset is behind the last document too (`Xsiam.Repository.pagingExact_iff`).
-/

namespace Xsiam

namespace Repository

open Go

variable {α : Type} {c : DBCollection α} {o : ListOptions α} {page size : ℕ}

/-- The options, for another page. -/
def ListOptions.paged (o : ListOptions α) (page size : ℕ) : ListOptions α :=
  { o with page, pageSize := size }

/-- How many documents match. -/
def DBCollection.total (c : DBCollection α) (o : ListOptions α) : ℕ := (c.matching o).length

/-- A page has its part of the documents that match, and says how many there are, and how many pages;
and these are all documents. -/
structure PagingExact (c : DBCollection α) (o : ListOptions α) (page size : ℕ) : Prop where
  page : findPaged c (o.paged page size) = .ok (Paging.page size (page - 1) (c.matching o),
    ⟨c.total o, page, size, (c.total o ⌈/⌉ size : ℕ)⟩)
  all : ∃ pages : ℕ → List α,
    (∀ k < c.total o ⌈/⌉ size, ∃ pageMeta,
      findPaged c (o.paged (k + 1) size) = .ok (pages k, pageMeta)) ∧
    (List.range (c.total o ⌈/⌉ size)).flatMap pages = c.matching o

/-- A page that can be asked for. -/
structure Askable (page size : ℕ) : Prop where
  first : 1 ≤ page
  fits : page < 2 ^ 63
  least : 1 ≤ size
  most : size ≤ 100

namespace Askable

/-- The page that is asked for is the one that is read. -/
theorem pageNumber_eq (h : Askable page size) : (o.paged page size).pageNumber = page := by
  have hfirst := h.first
  rw [ListOptions.pageNumber, ListOptions.paged]
  dsimp only
  rw [if_neg (by omega)]

theorem limit_eq (h : Askable page size) : (o.paged page size).limit = size := by
  have hleast := h.least
  have hmost := h.most
  rw [ListOptions.limit, ListOptions.paged]
  dsimp only
  rw [if_neg (by omega), if_neg (by omega)]

/-- The offset, before it is cut to 64 bits. -/
theorem offset_eq (h : Askable page size) :
    (o.paged page size).offset = (((page - 1) * size : ℕ) : ℤ).bmod (2 ^ 64) := by
  have hcast : ((page : ℤ) - 1) * size = ((page - 1) * size : ℕ) := by
    rw [Nat.cast_mul, Nat.cast_sub h.first, Nat.cast_one]
  rw [ListOptions.offset, h.pageNumber_eq, h.limit_eq, hcast]

end Askable

/-- The quotient, and one more if there is a rest, is the quotient rounded up. -/
theorem ceilDiv_eq (total : ℕ) (hsize : 0 < size) :
    total ⌈/⌉ size = total / size + if 0 < total % size then 1 else 0 := by
  have hsplit := Nat.div_add_mod total size
  have hrest := Nat.mod_lt total hsize
  refine le_antisymm ((ceilDiv_le_iff_le_mul hsize).mpr ?_) ?_
  · rw [Nat.mul_add]
    split_ifs
    · omega
    · omega
  · have hle : total ≤ size * (total ⌈/⌉ size) := (ceilDiv_le_iff_le_mul hsize).mp le_rfl
    split_ifs with hpos
    · have hlt : size * (total / size) < size * (total ⌈/⌉ size) := by omega
      exact Nat.lt_of_mul_lt_mul_left hlt
    · have hle' : size * (total / size) ≤ size * (total ⌈/⌉ size) := by omega
      exact Nat.le_of_mul_le_mul_left hle' hsize

/-- What is said about a page, whatever is on it. -/
theorem pageMeta_eq (h : Askable page size) :
    (⟨(c.docs.filter (o.paged page size).passes).length, (o.paged page size).pageNumber,
      (o.paged page size).limit,
      ((c.docs.filter (o.paged page size).passes).length : ℤ) / (o.paged page size).limit +
        if 0 < ((c.docs.filter (o.paged page size).passes).length : ℤ) % (o.paged page size).limit then 1
        else 0⟩ : PageMeta) = ⟨c.total o, page, size, (c.total o ⌈/⌉ size : ℕ)⟩ := by
  have htotal : (c.docs.filter (o.paged page size).passes).length = c.total o :=
    (length_matching c (o.paged page size)).symm
  have hrest : 0 < (c.total o : ℤ) % size ↔ 0 < c.total o % size := by
    rw [← Int.natCast_mod, Int.natCast_pos]
  rw [htotal, h.pageNumber_eq, h.limit_eq, ceilDiv_eq (c.total o) h.least]
  simp only [hrest]
  push_cast
  rfl

/-- **What the database is asked for, and what it answers.** -/
theorem findPaged_eq (hsort : o.SortsByPath) (h : Askable page size) :
    findPaged c (o.paged page size) =
      if (((page - 1) * size : ℕ) : ℤ).bmod (2 ^ 64) < 0 then
        .error (str "page query: " ++ str "value out of range")
      else .ok (((c.matching o).drop ((((page - 1) * size : ℕ) : ℤ).bmod (2 ^ 64)).toNat).take size,
        ⟨c.total o, page, size, (c.total o ⌈/⌉ size : ℕ)⟩) := by
  rw [findPaged, DBCollection.rows, if_neg (not_not.mpr (show (o.paged page size).SortsByPath from hsort)),
    h.offset_eq, pageMeta_eq h]
  split_ifs
  · rfl
  · dsimp only
    rw [h.limit_eq]
    rfl

/-- **A page whose offset fits is exact.** -/
theorem findPaged_exact (hsort : o.SortsByPath) (h : Askable page size)
    (hfits : (page - 1) * size < 2 ^ 63) :
    findPaged c (o.paged page size) = .ok (Paging.page size (page - 1) (c.matching o),
      ⟨c.total o, page, size, (c.total o ⌈/⌉ size : ℕ)⟩) := by
  have hoffset : (((page - 1) * size : ℕ) : ℤ).bmod (2 ^ 64) = ((page - 1) * size : ℕ) :=
    Int.bmod_eq_of_le_mul_two (by omega) (by omega)
  rw [findPaged_eq hsort h, hoffset, if_neg (by omega), Int.toNat_natCast, Paging.page]

/-- **All pages are all documents that match.** Their offsets fit, since there are documents behind
them. -/
theorem flatMap_findPaged (hsort : o.SortsByPath) (hleast : 1 ≤ size) (hmost : size ≤ 100)
    (hcount : c.total o < 2 ^ 63) :
    ∃ pages : ℕ → List α,
      (∀ k < c.total o ⌈/⌉ size, ∃ pageMeta,
        findPaged c (o.paged (k + 1) size) = .ok (pages k, pageMeta)) ∧
      (List.range (c.total o ⌈/⌉ size)).flatMap pages = c.matching o := by
  refine ⟨fun k => Paging.page size k (c.matching o), fun k hk => ?_, ?_⟩
  · have hlast : k * size < c.total o := by
      by_contra hge
      rw [not_lt, Nat.mul_comm] at hge
      exact absurd ((ceilDiv_le_iff_le_mul hleast).mpr hge) (not_le.mpr hk)
    have hle : k ≤ k * size := Nat.le_mul_of_pos_right k hleast
    have hask : Askable (k + 1) size := ⟨Nat.succ_pos k, by omega, hleast, hmost⟩
    have hexact := findPaged_exact (c := c) hsort hask (by rw [Nat.add_sub_cancel]; omega)
    rw [Nat.add_sub_cancel] at hexact
    exact ⟨_, hexact⟩
  · have hall : c.total o ≤ size * (c.total o ⌈/⌉ size) := (ceilDiv_le_iff_le_mul hleast).mp le_rfl
    rw [Paging.flatMap_page, List.take_of_length_le]
    rwa [Nat.mul_comm]

/-- **Paging is exact unless the offset wraps to a document**, or to what is no offset: for every
collection, every page from one and every size of pages up to a hundred. -/
theorem pagingExact_iff (hsort : o.SortsByPath) (h : Askable page size)
    (hcount : c.total o < 2 ^ 63) :
    PagingExact c o page size ↔
      (page - 1) * size < 2 ^ 63 ∨ (c.total o : ℤ) ≤ (((page - 1) * size : ℕ) : ℤ).bmod (2 ^ 64) := by
  have hall := flatMap_findPaged hsort h.least h.most hcount
  have hempty : 2 ^ 63 ≤ (page - 1) * size → Paging.page size (page - 1) (c.matching o) = [] :=
    fun hlarge => (Paging.page_eq_nil_iff h.least _ _).mpr (hcount.le.trans hlarge)
  constructor
  · rintro ⟨hpage, -⟩
    by_contra hwrong
    obtain ⟨hlarge, hbefore⟩ := not_or.mp hwrong
    rw [findPaged_eq hsort h, hempty (not_lt.mp hlarge)] at hpage
    split_ifs at hpage with hneg
    · -- the rest of the offset is that of a document
      have hnone := (Prod.mk.inj (Except.ok.inj hpage)).1
      rw [List.take_eq_nil_iff, List.drop_eq_nil_iff] at hnone
      have hleast := h.least
      rw [DBCollection.total] at hbefore
      omega
  · rintro (hfits | hbehind)
    · exact ⟨findPaged_exact hsort h hfits, hall⟩
    · refine ⟨?_, hall⟩
      rcases Nat.lt_or_ge ((page - 1) * size) (2 ^ 63) with hfits | hlarge
      · exact findPaged_exact hsort h hfits
      · -- what is left of the offset is behind all documents, and so is the offset
        rw [findPaged_eq hsort h, if_neg (by omega), hempty hlarge, List.drop_eq_nil_of_le, List.take_nil]
        rw [DBCollection.total] at hbehind
        omega

/-- The last page of a collection of three. -/
theorem pagingExact_last :
    PagingExact (DBCollection.unsorted (List.range 45)) { collection := str "reports" } 3 20 :=
  (pagingExact_iff (by decide +kernel) ⟨by decide, by decide, by decide, by decide⟩ (by decide)).mpr
    (.inl (by decide))

/-- **The document of the first page is on a page far behind it too.** -/
theorem not_pagingExact :
    findPaged (DBCollection.unsorted [()])
        (ListOptions.paged { collection := str "reports" } (2 ^ 62 + 1) 4) =
      .ok ([()], ⟨1, 2 ^ 62 + 1, 4, 1⟩) ∧
    ¬PagingExact (DBCollection.unsorted [()]) { collection := str "reports" } (2 ^ 62 + 1) 4 := by
  have hask : Askable (2 ^ 62 + 1) 4 := ⟨by decide, by decide, by decide, by decide⟩
  have hsort : (ListOptions.mk (α := Unit) (str "reports") [] ∅ [] false 0 0).SortsByPath := by
    decide +kernel
  have hcall : findPaged (DBCollection.unsorted [()])
      (ListOptions.paged { collection := str "reports" } (2 ^ 62 + 1) 4) =
        .ok ([()], ⟨1, 2 ^ 62 + 1, 4, 1⟩) := by
    rw [findPaged_eq hsort hask]
    rfl
  refine ⟨hcall, fun h => ?_⟩
  -- a page that far behind has no documents
  have hdocs := (Prod.mk.inj (Except.ok.inj (hcall.symm.trans h.page))).1
  have hempty := (Paging.page_eq_nil_iff (by decide : 0 < 4) (2 ^ 62 + 1 - 1) [()]).mpr (by decide)
  exact absurd (hdocs.trans hempty) (List.cons_ne_nil _ _)

end Repository

end Xsiam
