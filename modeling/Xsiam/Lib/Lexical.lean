import Mathlib.Data.List.Basic
import Mathlib.Data.Nat.Find
import Mathlib.Data.UInt
import Mathlib.Order.Basic

/-!
# Numbers in the order of their texts

Texts are compared character by character. Where the first parts of two texts have one length, the
first parts decide, and where they are the same the rest does (`Lexical.append_le_append_iff`). So
numbers that are written with a fixed number of digits, one behind the other, are compared as the
numbers are, the first one first (`Lexical.field_le_iff`). For numbers that say where something is in
steps that follow one another, such as the year, the month and the day, that is the order of the places
(`Lexical.lt_iff_step`).

Where the zeros at the end of the digits are left out, the texts of two numbers are in the order of the
numbers only if what stands behind the digits is small (`Lexical.trimmed_lt`).
-/

namespace Lexical

/-! ### Texts one behind the other -/

theorem append_le_append_iff {xs ys as bs : List UInt8} (h : xs.length = ys.length) :
    xs ++ as ≤ ys ++ bs ↔ xs < ys ∨ xs = ys ∧ as ≤ bs := by
  induction xs generalizing ys with
  | nil =>
    obtain rfl : [] = ys := (List.length_eq_zero_iff.mp h.symm).symm
    simp
  | cons x xs ih =>
    obtain ⟨y, ys, rfl⟩ : ∃ y zs, ys = y :: zs := List.exists_cons_of_length_pos (by simp [← h])
    rw [List.cons_append, List.cons_append, List.cons_le_cons_iff, List.cons_lt_cons_iff,
      ih (Nat.succ.inj h), List.cons.injEq]
    tauto

theorem cons_le_cons {x y : UInt8} (h : x < y) (xs ys : List UInt8) : x :: xs ≤ y :: ys :=
  List.cons_le_cons_iff.mpr (.inl h)

theorem not_cons_le_cons {x y : UInt8} (h : y < x) (xs ys : List UInt8) : ¬x :: xs ≤ y :: ys :=
  fun hle => hle (List.cons_lt_cons_iff.mpr (.inl h))

/-! ### Digits -/

/-- A digit. -/
def digit (d : ℕ) : UInt8 := UInt8.ofNat (0x30 + d)

theorem digit_lt_iff {d e : ℕ} (hd : d < 10) (he : e < 10) : digit d < digit e ↔ d < e := by
  rw [digit, digit, UInt8.lt_iff_toNat_lt, UInt8.toNat_ofNat_of_lt' (by rw [UInt8.size]; omega),
    UInt8.toNat_ofNat_of_lt' (by rw [UInt8.size]; omega)]
  omega

theorem digit_inj {d e : ℕ} (hd : d < 10) (he : e < 10) : digit d = digit e ↔ d = e := by
  constructor
  · intro h
    have h₁ := mt (digit_lt_iff hd he).mpr
    have h₂ := mt (digit_lt_iff he hd).mpr
    rw [h] at h₁ h₂
    have := h₁ (UInt8.lt_irrefl _)
    have := h₂ (UInt8.lt_irrefl _)
    omega
  · rintro rfl
    rfl

/-- The last digits of a number. -/
def digits : ℕ → ℕ → List UInt8
  | 0, _ => []
  | k + 1, n => digit (n / 10 ^ k % 10) :: digits k n

@[simp] theorem length_digits (k n : ℕ) : (digits k n).length = k := by
  induction k with
  | zero => rfl
  | succ k ih => rw [digits, List.length_cons, ih]

theorem digits_mod (k n : ℕ) : digits k (n % 10 ^ k) = digits k n := by
  induction k generalizing n with
  | zero => rfl
  | succ k ih =>
    have hrest : digits k (n % 10 ^ (k + 1)) = digits k n := by
      rw [← ih (n % 10 ^ (k + 1)), Nat.mod_mod_of_dvd _ (Nat.pow_dvd_pow 10 (Nat.le_succ k)), ih]
    have hfirst : n % 10 ^ (k + 1) / 10 ^ k % 10 = n / 10 ^ k % 10 := by
      rw [Nat.pow_succ, Nat.mod_mul_right_div_self, Nat.mod_mod]
    rw [digits, digits, hrest, hfirst]

/-- **Digits are in the order of the numbers.** -/
theorem digits_lt_iff {k : ℕ} : ∀ {n m : ℕ}, n < 10 ^ k → m < 10 ^ k →
    (digits k n < digits k m ↔ n < m) := by
  induction k with
  | zero =>
    intro n m hn hm
    simp [digits]
    omega
  | succ k ih =>
    intro n m hn hm
    have hpos : 0 < 10 ^ k := Nat.pow_pos (by decide)
    rw [Nat.pow_succ] at hn hm
    have hn' : n / 10 ^ k < 10 := Nat.div_lt_of_lt_mul hn
    have hm' : m / 10 ^ k < 10 := Nat.div_lt_of_lt_mul hm
    have hn₀ := Nat.div_add_mod n (10 ^ k)
    have hm₀ := Nat.div_add_mod m (10 ^ k)
    have hnmod := Nat.mod_lt n hpos
    have hmmod := Nat.mod_lt m hpos
    rw [digits, digits, List.cons_lt_cons_iff, Nat.mod_eq_of_lt hn', Nat.mod_eq_of_lt hm',
      digit_lt_iff hn' hm', digit_inj hn' hm', ← digits_mod k n, ← digits_mod k m, ih hnmod hmmod]
    constructor
    · rintro (hlt | ⟨heq, hlt⟩)
      · have := Nat.mul_le_mul_left (10 ^ k) (Nat.succ_le_of_lt hlt)
        rw [Nat.mul_succ] at this
        omega
      · rw [heq] at hn₀
        omega
    · intro hlt
      obtain h | h | h := lt_trichotomy (n / 10 ^ k) (m / 10 ^ k)
      · exact .inl h
      · rw [h] at hn₀
        exact .inr ⟨h, by omega⟩
      · have := Nat.mul_le_mul_left (10 ^ k) (Nat.succ_le_of_lt h)
        rw [Nat.mul_succ] at this
        omega

theorem digits_inj {k n m : ℕ} (hn : n < 10 ^ k) (hm : m < 10 ^ k) :
    digits k n = digits k m ↔ n = m := by
  constructor
  · intro h
    have h₁ := mt (digits_lt_iff hn hm).mpr
    have h₂ := mt (digits_lt_iff hm hn).mpr
    rw [h] at h₁ h₂
    have := h₁ (List.lt_irrefl _)
    have := h₂ (List.lt_irrefl _)
    omega
  · rintro rfl
    rfl

theorem digits_le_iff {k n m : ℕ} (hn : n < 10 ^ k) (hm : m < 10 ^ k) :
    digits k n ≤ digits k m ↔ n ≤ m := by
  rw [← List.not_lt, digits_lt_iff hm hn, Nat.not_lt]

theorem digit_bounds {k n : ℕ} : ∀ d ∈ digits k n, 0x30 ≤ d ∧ d ≤ 0x39 := by
  induction k with
  | zero => exact fun d hd => absurd hd List.not_mem_nil
  | succ k ih =>
    have hlt : n / 10 ^ k % 10 < 10 := Nat.mod_lt _ (by decide)
    rw [digits, List.forall_mem_cons]
    refine ⟨?_, ih⟩
    rw [digit, UInt8.le_iff_toNat_le, UInt8.le_iff_toNat_le,
      UInt8.toNat_ofNat_of_lt' (by rw [UInt8.size]; omega)]
    exact ⟨Nat.le_add_right _ _, Nat.add_le_add_left (Nat.le_of_lt_succ hlt) 0x30⟩

theorem digits_zero (k : ℕ) : ∀ d ∈ digits k 0, d = 0x30 := by
  induction k with
  | zero => exact fun d hd => absurd hd List.not_mem_nil
  | succ k ih =>
    rw [digits, List.forall_mem_cons, Nat.zero_div]
    exact ⟨rfl, ih⟩

/-- **Numbers with a fixed number of digits are compared first.** -/
theorem field_le_iff {k n m : ℕ} (hn : n < 10 ^ k) (hm : m < 10 ^ k) (c : UInt8) {as bs : List UInt8} :
    digits k n ++ c :: as ≤ digits k m ++ c :: bs ↔ n < m ∨ n = m ∧ as ≤ bs := by
  rw [append_le_append_iff (by simp), digits_lt_iff hn hm, digits_inj hn hm, List.cons_le_cons_iff]
  simp

/-! ### Places -/

/-- The last step that is not behind a place. -/
def stepOf (start : ℕ → ℕ) (bound n : ℕ) : ℕ := Nat.findGreatest (fun k => start k ≤ n) bound

theorem stepOf_le_bound (start : ℕ → ℕ) (bound n : ℕ) : stepOf start bound n ≤ bound :=
  Nat.findGreatest_le bound

theorem stepOf_le {start : ℕ → ℕ} (hzero : start 0 = 0) (bound n : ℕ) :
    start (stepOf start bound n) ≤ n :=
  Nat.findGreatest_spec (P := fun k => start k ≤ n) (Nat.zero_le bound) (by rw [hzero]; exact n.zero_le)

/-- The next step is behind the place, if the last one is. -/
theorem lt_stepOf_succ {start : ℕ → ℕ} {bound n : ℕ} (h : n < start (bound + 1)) :
    n < start (stepOf start bound n + 1) := by
  by_cases hlast : stepOf start bound n = bound
  · rwa [hlast]
  · have hle := stepOf_le_bound start bound n
    exact Nat.lt_of_not_le (Nat.findGreatest_is_greatest (P := fun k => start k ≤ n)
      (Nat.lt_succ_self _) (by omega))

/-- **Places are in the order of their steps, and in one step in the order of what is behind its
start.** -/
theorem lt_iff_step {start : ℕ → ℕ} (hmono : Monotone start) {n m k l : ℕ} (hk : start k ≤ n)
    (hk' : n < start (k + 1)) (hl : start l ≤ m) (hl' : m < start (l + 1)) :
    n < m ↔ k < l ∨ k = l ∧ n - start k < m - start l := by
  obtain h | rfl | h := lt_trichotomy k l
  · have := hmono (Nat.succ_le_of_lt h)
    rw [Nat.succ_eq_add_one] at this
    exact ⟨fun _ => .inl h, fun _ => by omega⟩
  · omega
  · have := hmono (Nat.succ_le_of_lt h)
    rw [Nat.succ_eq_add_one] at this
    omega

/-! ### Digits without the zeros at the end -/

/-- Digits without the zeros at their end. -/
def trimZeros : List UInt8 → List UInt8
  | [] => []
  | b :: bs => if b = 0x30 ∧ trimZeros bs = [] then [] else b :: trimZeros bs

theorem trimZeros_cons (b : UInt8) (bs : List UInt8) :
    trimZeros (b :: bs) = if b = 0x30 ∧ trimZeros bs = [] then [] else b :: trimZeros bs := rfl

theorem trimZeros_eq_nil_iff {bs : List UInt8} : trimZeros bs = [] ↔ ∀ b ∈ bs, b = 0x30 := by
  induction bs with
  | nil => simp [trimZeros]
  | cons b bs ih =>
    rw [trimZeros_cons, List.forall_mem_cons, ← ih]
    split_ifs with h
    · simp [h]
    · simp [h]

theorem trimZeros_digits_eq_nil_iff {k n : ℕ} (hn : n < 10 ^ k) :
    trimZeros (digits k n) = [] ↔ n = 0 := by
  rw [trimZeros_eq_nil_iff, ← digits_inj hn (Nat.pow_pos (by decide))]
  constructor
  · intro h
    rw [List.eq_replicate_of_mem h, List.eq_replicate_of_mem (digits_zero k), length_digits,
      length_digits]
  · intro h
    rw [h]
    exact digits_zero k

/-- Nothing is before zeros. -/
theorem not_lt_zeros {ds es : List UInt8} (hlen : ds.length = es.length) (hds : ∀ d ∈ ds, 0x30 ≤ d)
    (hes : ∀ e ∈ es, e = 0x30) : ¬ds < es := by
  induction ds generalizing es with
  | nil =>
    obtain rfl : [] = es := (List.length_eq_zero_iff.mp hlen.symm).symm
    exact List.lt_irrefl _
  | cons d ds ih =>
    obtain ⟨e, es, rfl⟩ : ∃ y zs, es = y :: zs := List.exists_cons_of_length_pos (by simp [← hlen])
    rw [List.forall_mem_cons] at hds hes
    rw [List.cons_lt_cons_iff, hes.1]
    rintro (h | ⟨-, h⟩)
    · exact absurd h (UInt8.not_lt.mpr hds.1)
    · exact ih (Nat.succ.inj hlen) hds.2 hes.2 h

/-- **Digits without the zeros at the end are in order, unless the first begin the second and a
character that is above the digits is behind them.** -/
theorem trimmed_lt {ds es z w : List UInt8} {c : UInt8} (hlen : ds.length = es.length)
    (hds : ∀ d ∈ ds, 0x30 ≤ d) (hes : ∀ e ∈ es, 0x30 ≤ e ∧ e ≤ 0x39) (hc : c < 0x30 ∨ 0x39 < c)
    (hlt : ds < es) :
    if trimZeros ds <+: trimZeros es ∧ 0x39 < c then trimZeros es ++ w < trimZeros ds ++ c :: z
    else trimZeros ds ++ c :: z < trimZeros es ++ w := by
  induction ds generalizing es with
  | nil =>
    obtain rfl : [] = es := (List.length_eq_zero_iff.mp hlen.symm).symm
    exact absurd hlt (List.lt_irrefl _)
  | cons d ds ih =>
    obtain ⟨e, es, rfl⟩ : ∃ y zs, es = y :: zs := List.exists_cons_of_length_pos (by simp [← hlen])
    have hes' : trimZeros (e :: es) = e :: trimZeros es := by
      rw [trimZeros_cons, if_neg]
      -- no zeros, since there is something before them
      rintro ⟨rfl, hnil⟩
      exact not_lt_zeros hlen hds
        (List.forall_mem_cons.mpr ⟨rfl, trimZeros_eq_nil_iff.mp hnil⟩) hlt
    rw [List.forall_mem_cons] at hds hes
    rw [hes', trimZeros_cons]
    by_cases hnil : d = 0x30 ∧ trimZeros ds = []
    · -- nothing is left of the first, so it begins the second
      rw [if_pos hnil]
      split_ifs with hbegins
      · exact List.cons_lt_cons_iff.mpr (.inl (UInt8.lt_of_le_of_lt hes.1.2 hbegins.2))
      · have hbelow : c < 0x30 := hc.resolve_right fun h => hbegins ⟨List.nil_prefix, h⟩
        exact List.cons_lt_cons_iff.mpr (.inl (UInt8.lt_of_lt_of_le hbelow hes.1.1))
    · rw [if_neg hnil]
      simp only [List.cons_prefix_cons, List.cons_append, List.cons_lt_cons_iff]
      rcases List.cons_lt_cons_iff.mp hlt with hfirst | ⟨rfl, hrest⟩
      · rw [if_neg fun h => UInt8.ne_of_lt hfirst h.1.1]
        exact .inl hfirst
      · simpa [UInt8.lt_irrefl] using ih (Nat.succ.inj hlen) hds.2 hes.2 hrest

end Lexical
