import Mathlib.Algebra.BigOperators.Group.List.Basic
import Mathlib.Algebra.Order.Group.Int
import Mathlib.Data.Int.ModEq
import Mathlib.Tactic.Linarith
import Mathlib.Tactic.Ring

/-!
# Slots of a line, and a clock over them

A line is cut into slots of one width from some point on (`Slots.slot`), and a clock counts them round
(`Slots.clock`). Where the slots start at a full hour of the clock, what it shows is the number of the
slot behind what it shows at the start (`Slots.clock_eq`); so of as many slots as the clock has hours
each is at one hour (`Slots.clock_eq_iff`).

What is behind them is at the same hours again. So a sum over an hour is the sum over one slot and over
what is late (`Slots.sum_filter_split`).
-/

namespace Slots

variable {w n s t u i : ℤ}

/-- The number of the slot of an instant. -/
def slot (w s t : ℤ) : ℤ := (t - s) / w

/-- What a clock of `n` hours shows. -/
def clock (w n t : ℤ) : ℤ := t / w % n

theorem clock_mem (hn : 0 < n) : 0 ≤ clock w n t ∧ clock w n t < n :=
  ⟨Int.emod_nonneg _ hn.ne', Int.emod_lt_of_pos _ hn⟩

/-- **What the clock shows** is the slot behind what it shows at the start. -/
theorem clock_eq (hs : w ∣ s) : clock w n t = (clock w n s + slot w s t) % n := by
  have hsplit : t / w = s / w + (t - s) / w := by
    rw [← Int.add_ediv_of_dvd_left hs, add_sub_cancel]
  rw [clock, clock, slot, hsplit, Int.emod_add_emod]

theorem clock_start (hw : 0 < w) (hs : w ∣ s) (i : ℤ) :
    clock w n (s + i * w) = (clock w n s + i) % n := by
  have hslot : slot w s (s + i * w) = i := by
    rw [slot, add_sub_cancel_left, Int.mul_ediv_cancel _ hw.ne']
  rw [clock_eq hs, hslot]

/-- **Of the slots of one round each is at one hour.** -/
theorem clock_eq_iff (hs : w ∣ s) (hslot : 0 ≤ slot w s t ∧ slot w s t < n) :
    clock w n t = u % n ↔ slot w s t = (u - clock w n s) % n := by
  rw [clock_eq hs]
  have hself : slot w s t = slot w s t % n := (Int.emod_eq_of_lt hslot.1 hslot.2).symm
  constructor
  · intro h
    rw [hself, ← add_sub_cancel_left (clock w n s) (slot w s t)]
    exact Int.ModEq.sub_right _ h
  · intro h
    have hadd := Int.ModEq.add_left (clock w n s) (show slot w s t ≡ u - clock w n s [ZMOD n] by
      rw [Int.ModEq, ← hself, h])
    rwa [add_sub_cancel] at hadd

/-- A sum over what passes a test is that over what passes another one too, and over what does not. -/
theorem sum_filter_split {α : Type*} (f : α → ℤ) (p q : α → Bool) (l : List α) :
    ((l.filter p).map f).sum =
      ((l.filter fun x => p x && q x).map f).sum + ((l.filter fun x => p x && !q x).map f).sum := by
  induction l with
  | nil => rfl
  | cons x l ih =>
    cases hp : p x
    · simp [hp, ih]
    · cases hq : q x
      · simp [hp, hq, ih]
        ring
      · simp [hp, hq, ih]
        ring

end Slots
