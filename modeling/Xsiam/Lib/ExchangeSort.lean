import Xsiam.Lib.Paging

/-!
# Sorting by exchanges

The sort of two loops, one in the other: each place is compared with the places behind it, and what
stands there is exchanged with what belongs before it. The comparison is strict, so that elements with
one key are exchanged only on the way; which of them comes first depends on what was between them. But a
list that is in order already stays as it is (`ExchangeSort.sort_of_ranked`), so every order of elements
with one key can be what comes out.
-/

namespace ExchangeSort

open Paging

variable {α β : Type*} (below : α → α → Bool)

/-- The inner loop: what is left at a place, and behind it. -/
def settle : α → List α → α × List α
  | x, [] => (x, [])
  | x, y :: ys =>
    if below x y then ((settle y ys).1, x :: (settle y ys).2)
    else ((settle x ys).1, y :: (settle x ys).2)

/-- The outer loop, over a number of places. -/
def sortFirst : ℕ → List α → List α
  | n + 1, x :: xs => (settle below x xs).1 :: sortFirst n (settle below x xs).2
  | _, xs => xs

/-- The sort of a list. -/
def sort (xs : List α) : List α := sortFirst below xs.length xs

/-! ### What is exchanged -/

theorem settle_perm (x : α) (ys : List α) :
    ((settle below x ys).1 :: (settle below x ys).2).Perm (x :: ys) := by
  induction ys generalizing x with
  | nil => exact .refl _
  | cons y ys ih =>
    rw [settle]
    split_ifs
    · exact (List.Perm.swap x _ _).trans ((ih y).cons x)
    · exact ((List.Perm.swap y _ _).trans ((ih x).cons y)).trans (List.Perm.swap x y ys)

theorem sortFirst_perm (n : ℕ) (xs : List α) : (sortFirst below n xs).Perm xs := by
  induction n generalizing xs with
  | zero => exact .refl _
  | succ n ih =>
    cases xs with
    | nil => exact .refl _
    | cons x xs => exact ((ih _).cons _).trans (settle_perm below x xs)

theorem sort_perm (xs : List α) : (sort below xs).Perm xs := sortFirst_perm below xs.length xs

/-! ### In which order -/

variable {below} [LinearOrder β] {key : α → β} (hbelow : ∀ a b, below a b = true ↔ key a < key b)

include hbelow

/-- What is left at a place is above what was there, and above everything behind it. -/
theorem settle_top (x : α) (ys : List α) : key x ≤ key (settle below x ys).1 ∧
    ∀ y ∈ (settle below x ys).2, key y ≤ key (settle below x ys).1 := by
  induction ys generalizing x with
  | nil => exact ⟨le_rfl, fun y hy => absurd hy List.not_mem_nil⟩
  | cons y ys ih =>
    rw [settle]
    split_ifs with hxy
    · obtain ⟨htop, hrest⟩ := ih y
      have hx := ((hbelow x y).mp hxy).le.trans htop
      exact ⟨hx, List.forall_mem_cons.mpr ⟨hx, hrest⟩⟩
    · obtain ⟨htop, hrest⟩ := ih x
      have hy : key y ≤ key x := not_lt.mp fun hlt => hxy ((hbelow x y).mpr hlt)
      exact ⟨htop, List.forall_mem_cons.mpr ⟨hy.trans htop, hrest⟩⟩

theorem ranked_sortFirst (n : ℕ) {xs : List α} (hlen : xs.length ≤ n) :
    Ranked key (sortFirst below n xs) := by
  induction n generalizing xs with
  | zero =>
    obtain rfl := List.length_eq_zero_iff.mp (Nat.le_zero.mp hlen)
    exact .nil
  | succ n ih =>
    cases xs with
    | nil => exact .nil
    | cons x xs =>
      have hrest : (settle below x xs).2.length = xs.length :=
        Nat.succ.inj (settle_perm below x xs).length_eq
      refine List.pairwise_cons.mpr ⟨fun y hy => ?_, ih (by rw [hrest]; exact Nat.le_of_succ_le_succ hlen)⟩
      exact (settle_top hbelow x xs).2 y ((sortFirst_perm below n _).mem_iff.mp hy)

/-- **What is sorted is in order.** -/
theorem ranked_sort (xs : List α) : Ranked key (sort below xs) :=
  ranked_sortFirst hbelow xs.length le_rfl

/-- At the top of what follows nothing is exchanged. -/
theorem settle_of_le {x : α} {ys : List α} (h : ∀ y ∈ ys, key y ≤ key x) :
    settle below x ys = (x, ys) := by
  induction ys with
  | nil => rfl
  | cons y ys ih =>
    obtain ⟨hy, hys⟩ := List.forall_mem_cons.mp h
    have hxy : ¬below x y = true := fun hlt => not_lt.mpr hy ((hbelow x y).mp hlt)
    rw [settle, if_neg hxy, ih hys]

/-- **A list in order is left as it is.** -/
theorem sort_of_ranked {xs : List α} (h : Ranked key xs) : sort below xs = xs := by
  rw [sort]
  induction xs with
  | nil => rfl
  | cons x xs ih =>
    obtain ⟨hx, hxs⟩ := List.pairwise_cons.mp h
    rw [List.length_cons, sortFirst, settle_of_le hbelow hx, ih hxs]

end ExchangeSort
