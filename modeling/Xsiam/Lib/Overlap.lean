import Mathlib.Data.List.Dedup
import Mathlib.Data.List.Perm.Subperm

/-!
# What two lists have in common

How many elements of a list are in another one (`Xsiam.Overlap.overlap`), with repetitions: an element
that the first list has twice counts twice, and how often the second one has it does not matter. So
the number is one of the elements of the first list and of the set of those of the second. It grows
with both (`Xsiam.Overlap.overlap_mono`), and the lists can be exchanged where none of them repeats
itself (`Xsiam.Overlap.overlap_comm`).
-/

namespace Xsiam

namespace Overlap

variable {α : Type*} [DecidableEq α] {xs xs' ys ys' : List α} {x : α}

/-- The number of elements of the first list that are in the second one. -/
def overlap (xs ys : List α) : ℕ := xs.countP (· ∈ ys)

/-- **Which elements the second list has is all that matters of it.** -/
theorem overlap_congr_right (xs : List α) (h : ∀ x, x ∈ ys ↔ x ∈ ys') :
    overlap xs ys = overlap xs ys' := by
  refine List.countP_congr fun x _ => ?_
  simp [h]

/-- An element more in the first list. -/
theorem overlap_of_perm_cons (ys : List α) (h : xs'.Perm (x :: xs)) :
    overlap xs' ys = overlap xs ys + if x ∈ ys then 1 else 0 := by
  rw [overlap, h.countP_eq, List.countP_cons, overlap]
  simp

/-- **The number grows with both lists.** -/
theorem overlap_mono (hxs : xs.Subperm xs') (hys : ys ⊆ ys') : overlap xs ys ≤ overlap xs' ys' := by
  have hsecond : overlap xs ys ≤ overlap xs ys' := by
    refine List.countP_mono_left fun x _ hx => ?_
    exact decide_eq_true (hys (of_decide_eq_true hx))
  exact Nat.le_trans hsecond (hxs.countP_le _)

theorem overlap_eq_zero_iff : overlap xs ys = 0 ↔ ∀ x ∈ xs, x ∉ ys := by
  rw [overlap, List.countP_eq_zero]
  simp

/-- Where the first list has something of the second one, one of its elements can be repeated for
it. -/
theorem exists_of_overlap_pos (h : 0 < overlap xs ys) : ∃ x ∈ xs, x ∈ ys := by
  obtain ⟨x, hx, hmem⟩ := List.countP_pos_iff.mp h
  exact ⟨x, hx, of_decide_eq_true hmem⟩

/-- **Lists without repetitions can be exchanged.** -/
theorem overlap_comm (hxs : xs.Nodup) (hys : ys.Nodup) : overlap xs ys = overlap ys xs := by
  rw [overlap, overlap, List.countP_eq_length_filter, List.countP_eq_length_filter]
  refine List.Perm.length_eq ((List.perm_ext_iff_of_nodup (hxs.filter _) (hys.filter _)).mpr ?_)
  intro x
  simp only [List.mem_filter, decide_eq_true_eq]
  exact and_comm

end Overlap

end Xsiam
