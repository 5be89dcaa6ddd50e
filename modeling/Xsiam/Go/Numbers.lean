import Mathlib.Data.Rat.Floor
import Xsiam.Go.Float

/-!
# Numbers that scores are computed with

A score is a formula over `float64`, and what it is meant to be is the same formula over exact
numbers. So it is written once, over whatever numbers there are (`Xsiam.Go.Numbers`): floats with the
operations of the machine (`Xsiam.Go.Numbers.floats`), or rationals with those of arithmetic
(`Xsiam.Go.Numbers.exact`).
-/

namespace Xsiam

namespace Go

/-- The constants of the scores, as the source writes them. -/
inductive Literal where
  | zero
  | c0_1
  | c0_15
  | c0_2
  | c0_3
  | c0_4
  | c0_5
  | c0_7
  | c1
  | c5
  | c60
  | c80
  | c100
deriving DecidableEq

/-- The float that a constant is. -/
def Literal.float : Literal → Float64
  | .zero => ⟨0⟩
  | .c0_1 => .c0_1
  | .c0_15 => .c0_15
  | .c0_2 => .c0_2
  | .c0_3 => .c0_3
  | .c0_4 => .c0_4
  | .c0_5 => .c0_5
  | .c0_7 => .c0_7
  | .c1 => .c1
  | .c5 => .c5
  | .c60 => .c60
  | .c80 => .c80
  | .c100 => .c100

/-- The number that a constant says. -/
def Literal.exact : Literal → ℚ
  | .zero => 0
  | .c0_1 => 1 / 10
  | .c0_15 => 15 / 100
  | .c0_2 => 2 / 10
  | .c0_3 => 3 / 10
  | .c0_4 => 4 / 10
  | .c0_5 => 5 / 10
  | .c0_7 => 7 / 10
  | .c1 => 1
  | .c5 => 5
  | .c60 => 60
  | .c80 => 80
  | .c100 => 100

/-- Numbers, with the operators on `float64` and what is used of `math`. -/
structure Numbers (K : Type) where
  const : Literal → K
  add : K → K → K
  mul : K → K → K
  div : K → K → K
  /-- `math.Min` -/
  min : K → K → K
  /-- `math.Round` -/
  round : K → K
  /-- The conversion `float64(i)`. -/
  ofInt : ℤ → K
  lt : K → K → Bool
  le : K → K → Bool

/-- `math.Round` of an exact number: halves are rounded away from zero. -/
def roundHalf (x : ℚ) : ℚ := if x < 0 then -(⌊-x + 1 / 2⌋ : ℤ) else (⌊x + 1 / 2⌋ : ℤ)

namespace Numbers

/-- Floats. -/
def floats (ops : FloatOps) : Numbers Float64 where
  const := Literal.float
  add := ops.add
  mul := ops.mul
  div := ops.div
  min := ops.min
  round := ops.round
  ofInt := ops.ofInt
  lt := Float64.lt
  le := Float64.le

/-- Exact numbers. -/
def exact : Numbers ℚ where
  const := Literal.exact
  add := (· + ·)
  mul := (· * ·)
  div := (· / ·)
  min := Min.min
  round := roundHalf
  ofInt i := i
  lt x y := x < y
  le x y := x ≤ y

end Numbers

/-- A number that is not negative is rounded to the integer part of what is a half above it. -/
theorem roundHalf_of_nonneg {x : ℚ} (h : 0 ≤ x) : roundHalf x = (⌊x + 1 / 2⌋ : ℤ) :=
  if_neg (not_lt.mpr h)

/-- What rounds to a number or more is above it less a half. -/
theorem le_roundHalf_iff {x : ℚ} (h : 0 ≤ x) (n : ℤ) : (n : ℚ) ≤ roundHalf x ↔ n - 1 / 2 ≤ x := by
  rw [roundHalf_of_nonneg h, Int.cast_le, Int.le_floor]
  constructor
  · intro hx
    linarith
  · intro hx
    linarith

/-- An integer more is an integer more behind the rounding. -/
theorem roundHalf_add_int {x : ℚ} (h : 0 ≤ x) {n : ℤ} (hn : 0 ≤ n) :
    roundHalf (x + n) = roundHalf x + n := by
  have hn' : (0 : ℚ) ≤ n := Int.cast_nonneg hn
  have hswap : x + n + 1 / 2 = x + 1 / 2 + n := by ring
  rw [roundHalf_of_nonneg h, roundHalf_of_nonneg (add_nonneg h hn'), hswap, Int.floor_add_intCast,
    Int.cast_add]

end Go

end Xsiam
