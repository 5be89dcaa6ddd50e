import Mathlib.Logic.Function.Basic
import Mathlib.Tactic.Tauto

/-!
# Flags that say which groups have a member

Members are each in one group or in none, and a flag is kept for each group, to be up
exactly while the group has a member (`Occupancy.State.Right`). The flag does not count: a
member that joins raises the flag of its group (`Occupancy.State.join`), a member that leaves
takes one down (`Occupancy.State.leave`), and neither looks at the other members.

So either may go wrong, and it is said exactly when: a member that joins must not leave the
group it was in empty, and a member that leaves must leave the group of the flag it takes
down empty.
-/

namespace Occupancy

universe u v

/-- The groups of the members, and the flags. -/
structure State (ι : Type u) (γ : Type v) where
  group : ι → Option γ
  flag : γ → Prop

namespace State

variable {ι : Type u} {γ : Type v} (s : State ι γ)

/-- The flags say which groups have a member. -/
def Right : Prop := ∀ g, s.flag g ↔ ∃ i, s.group i = some g

/-- A group has a member besides `i`. -/
def HasOther (i : ι) (g : γ) : Prop := ∃ j, j ≠ i ∧ s.group j = some g

variable [DecidableEq ι]

/-- A member joins a group, whatever group it was in. -/
def join (i : ι) (g : γ) : State ι γ :=
  ⟨Function.update s.group i (some g), fun x => s.flag x ∨ x = g⟩

/-- A member leaves, and a flag is taken down if it says which. -/
def leave (i : ι) (down : Option γ) : State ι γ :=
  ⟨Function.update s.group i none, fun x => s.flag x ∧ down ≠ some x⟩

theorem join_flag (i : ι) (g x : γ) : (s.join i g).flag x ↔ s.flag x ∨ x = g := Iff.rfl

theorem leave_flag (i : ι) (down : Option γ) (x : γ) :
    (s.leave i down).flag x ↔ s.flag x ∧ down ≠ some x := Iff.rfl

/-- A member that joins and leaves again was not there. -/
theorem leave_join (i : ι) (g : γ) : (s.join i g).leave i (some g) = s.leave i (some g) := by
  have hgroup : ((s.join i g).leave i (some g)).group = (s.leave i (some g)).group :=
    Function.update_idem _ _ _
  have hflag : ((s.join i g).leave i (some g)).flag = (s.leave i (some g)).flag := by
    ext x
    rw [leave_flag, join_flag, leave_flag]
    refine and_congr_left fun hne => or_iff_left ?_
    rintro rfl
    exact hne rfl
  exact congrArg₂ State.mk hgroup hflag

variable {s}

/-- The members other than `i` are where they were. -/
theorem exists_update_iff {i : ι} {k : Option γ} {x : γ} :
    (∃ j, Function.update s.group i k j = some x) ↔ k = some x ∨ s.HasOther i x := by
  constructor
  · rintro ⟨j, hj⟩
    by_cases hji : j = i
    · rw [hji, Function.update_self] at hj
      exact Or.inl hj
    · rw [Function.update_of_ne hji] at hj
      exact Or.inr ⟨j, hji, hj⟩
  · rintro (hk | ⟨j, hji, hj⟩)
    · exact ⟨i, by rw [Function.update_self, hk]⟩
    · exact ⟨j, by rw [Function.update_of_ne hji, hj]⟩

/-- The flags are right: a group whose flag is up has `i` or another member. -/
theorem Right.flag_iff (h : s.Right) (i : ι) (x : γ) :
    s.flag x ↔ s.group i = some x ∨ s.HasOther i x := by
  rw [h x, ← exists_update_iff, Function.update_eq_self]

/-- **When joining keeps the flags right.** -/
theorem right_join_iff (h : s.Right) (i : ι) (g : γ) :
    (s.join i g).Right ↔ ∀ x, s.group i = some x → x ≠ g → s.HasOther i x := by
  refine forall_congr' fun x => ?_
  rw [join_flag, join, exists_update_iff, h.flag_iff i x, Option.some.injEq, @eq_comm _ g x]
  tauto

/-- **When leaving keeps the flags right.** -/
theorem right_leave_iff (h : s.Right) (i : ι) (down : Option γ) :
    (s.leave i down).Right ↔
      ∀ x, (s.group i = some x → down ≠ some x → s.HasOther i x) ∧
        (down = some x → ¬s.HasOther i x) := by
  refine forall_congr' fun x => ?_
  rw [leave_flag, leave, exists_update_iff, h.flag_iff i x]
  have hnone : ¬(none : Option γ) = some x := by simp
  tauto

end State

end Occupancy
