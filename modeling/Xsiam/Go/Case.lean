import Xsiam.Go.Unicode

/-!
# Lower case is lower case

What the case table of package `unicode` leads to is in none of its ranges
(`Xsiam.Go.caseRanges_clear`), so lower-casing a code point twice is lower-casing it once
(`Xsiam.Go.unicodeToLower_idem`). And it neither makes white space nor takes it away
(`Xsiam.Go.isSpace_unicodeToLower`).
-/

namespace Xsiam

namespace Go

theorem unicodeToLower_of_some {r : ℕ} {c : CaseRange} (hr : ¬r < 0x80)
    (h : caseRanges.find? (·.covers r) = some c) :
    unicodeToLower r = ((r : ℤ) + c.delta).toNat := by
  rw [unicodeToLower, if_neg hr, h]

theorem unicodeToLower_of_none {r : ℕ} (hr : ¬r < 0x80)
    (h : caseRanges.find? (·.covers r) = none) : unicodeToLower r = r := by
  rw [unicodeToLower, if_neg hr, h]

/-! ### Twice -/

/-- Where a range leads to, from its first code point and from its last one. -/
def CaseRange.first (c : CaseRange) : ℕ := ((c.lo : ℤ) + c.delta).toNat

def CaseRange.last (c : CaseRange) : ℕ := ((c.hi : ℤ) + c.delta).toNat

/-- What a range leads to is outside another one: before it, behind it, or between the code points
that alternate with its own. -/
def CaseRange.clear (c d : CaseRange) : Bool :=
  Nat.blt c.last d.lo || Nat.blt d.hi c.first ||
    (Nat.beq c.stride 2 || Nat.beq c.lo c.hi) && Nat.beq d.stride 2 &&
      Nat.beq ((c.first + d.lo) % 2) 1

theorem CaseRange.not_covers_of_clear {c d : CaseRange} {r : ℕ} (h : c.clear d = true)
    (hr : c.covers r = true) (hnonneg : 0 ≤ (c.lo : ℤ) + c.delta) :
    d.covers ((r : ℤ) + c.delta).toNat = false := by
  simp only [clear, first, last, Bool.or_eq_true, Bool.and_eq_true, Nat.blt_eq, Nat.beq_eq] at h
  simp only [covers, decide_eq_true_eq] at hr
  simp only [covers, decide_eq_false_iff_not]
  rintro ⟨hlo, hhi, hstep⟩
  obtain ⟨hlo', hhi', hstep'⟩ := hr
  rcases h with (h | h) | ⟨⟨hone, htwo⟩, hodd⟩
  · omega
  · omega
  · rw [htwo] at hstep
    rcases hone with hone | hone
    · rw [hone] at hstep'
      omega
    · omega

theorem caseRanges_nonneg : ∀ c ∈ caseRanges, 0 ≤ (c.lo : ℤ) + c.delta := by decide +kernel

/-- **No range leads into another one.** -/
theorem caseRanges_clear {c d : CaseRange} (hc : c ∈ caseRanges) (hd : d ∈ caseRanges) :
    c.clear d = true := by
  have hall : (caseRanges.all fun c => caseRanges.all fun d => c.clear d) = true := by
    decide +kernel
  exact List.all_eq_true.mp (List.all_eq_true.mp hall c hc) d hd

/-- **What is lower case stays.** -/
theorem unicodeToLower_idem (r : ℕ) : unicodeToLower (unicodeToLower r) = unicodeToLower r := by
  by_cases hr : r < 0x80
  · -- ASCII stays ASCII, and there are no capitals behind the small letters
    have hlower : unicodeToLower r = if 0x41 ≤ r ∧ r ≤ 0x5A then r + 0x20 else r := by
      rw [unicodeToLower, if_pos hr]
    rw [hlower]
    split_ifs with hcapital
    · rw [unicodeToLower, if_pos (by omega), if_neg (by omega)]
    · rw [hlower, if_neg hcapital]
  · rcases unicodeToLower_wide (Nat.not_lt.mp hr) with hwide | heq | heq
    · cases hfind : caseRanges.find? (·.covers r) with
      | none => rw [unicodeToLower_of_none hr hfind, unicodeToLower_of_none hr hfind]
      | some c =>
        rw [unicodeToLower_of_some hr hfind] at hwide ⊢
        have hcovers : c.covers r = true := by simpa using List.find?_some hfind
        have hnone : caseRanges.find? (·.covers ((r : ℤ) + c.delta).toNat) = none := by
          rw [List.find?_eq_none]
          intro d hd
          have hc := List.mem_of_find?_eq_some hfind
          rw [CaseRange.not_covers_of_clear (caseRanges_clear hc hd) hcovers
            (caseRanges_nonneg c hc)]
          exact Bool.false_ne_true
        exact unicodeToLower_of_none (Nat.not_lt.mpr hwide) hnone
    · rw [heq]
      rfl
    · rw [heq]
      rfl

/-! ### White space -/

/-- `unicode.IsSpace` -/
def isSpace (r : ℕ) : Bool :=
  (0x09 ≤ r ∧ r ≤ 0x0D) ∨ r = 0x20 ∨ r = 0x85 ∨ r = 0xA0 ∨ r = 0x1680 ∨
    (0x2000 ≤ r ∧ r ≤ 0x200A) ∨ r = 0x2028 ∨ r = 0x2029 ∨ r = 0x202F ∨ r = 0x205F ∨ r = 0x3000

/-- A range neither has white space in it nor leads there. -/
def CaseRange.spaceless (c : CaseRange) (s : ℕ) : Bool :=
  (s < c.lo ∨ c.hi < s) ∧ ((s : ℤ) < c.lo + c.delta ∨ (c.hi : ℤ) + c.delta < s)

/-- The white space outside ASCII. -/
def wideSpaces : List ℕ :=
  [0x85, 0xA0, 0x1680, 0x2000, 0x2001, 0x2002, 0x2003, 0x2004, 0x2005, 0x2006, 0x2007, 0x2008,
    0x2009, 0x200A, 0x2028, 0x2029, 0x202F, 0x205F, 0x3000]

theorem mem_wideSpaces {r : ℕ} (hr : 0x80 ≤ r) (h : isSpace r = true) : r ∈ wideSpaces := by
  simp only [isSpace, decide_eq_true_eq] at h
  simp only [wideSpaces, List.mem_cons, List.not_mem_nil, or_false]
  omega

theorem caseRanges_spaceless : ∀ c ∈ caseRanges, ∀ s ∈ wideSpaces, c.spaceless s = true := by
  decide +kernel

/-- **White space has no case**: what it is in lower case is white space exactly if it is. -/
theorem isSpace_unicodeToLower (r : ℕ) : isSpace (unicodeToLower r) = isSpace r := by
  by_cases hr : r < 0x80
  · rw [unicodeToLower, if_pos hr, Bool.eq_iff_iff]
    simp only [isSpace, decide_eq_true_eq]
    split_ifs <;> omega
  · cases hfind : caseRanges.find? (·.covers r) with
    | none => rw [unicodeToLower_of_none hr hfind]
    | some c =>
      rw [unicodeToLower_of_some hr hfind]
      have hmem := List.mem_of_find?_eq_some hfind
      have hcovers : c.covers r = true := by simpa using List.find?_some hfind
      simp only [CaseRange.covers, decide_eq_true_eq] at hcovers
      have hspaceless (s : ℕ) (hs : s ∈ wideSpaces) := caseRanges_spaceless c hmem s hs
      simp only [CaseRange.spaceless, decide_eq_true_eq] at hspaceless
      have hnot : isSpace r = false := by
        rw [Bool.eq_false_iff]
        intro hspace
        have hwhere := hspaceless r (mem_wideSpaces (Nat.not_lt.mp hr) hspace)
        omega
      have hnot' : isSpace ((r : ℤ) + c.delta).toNat = false := by
        rw [Bool.eq_false_iff]
        intro hspace
        have hwide := unicodeToLower_wide (Nat.not_lt.mp hr)
        rw [unicodeToLower_of_some hr hfind] at hwide
        rcases hwide with hwide | heq | heq
        · have hwhere := hspaceless _ (mem_wideSpaces hwide hspace)
          omega
        · exact absurd (heq ▸ hspace) (by decide)
        · exact absurd (heq ▸ hspace) (by decide)
      exact hnot'.trans hnot.symm

/-- White space is lower case. -/
theorem unicodeToLower_of_isSpace {r : ℕ} (h : isSpace r = true) : unicodeToLower r = r := by
  by_cases hr : r < 0x80
  · rw [unicodeToLower, if_pos hr, if_neg]
    simp only [isSpace, decide_eq_true_eq] at h
    omega
  · cases hfind : caseRanges.find? (·.covers r) with
    | none => exact unicodeToLower_of_none hr hfind
    | some c =>
      have hcovers : c.covers r = true := by simpa using List.find?_some hfind
      have hspaceless := caseRanges_spaceless c (List.mem_of_find?_eq_some hfind) r
        (mem_wideSpaces (Nat.not_lt.mp hr) h)
      simp only [CaseRange.covers, CaseRange.spaceless, decide_eq_true_eq] at hcovers hspaceless
      omega

end Go

end Xsiam
