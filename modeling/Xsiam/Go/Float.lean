import Xsiam.Go.Value

/-!
# The arithmetic of floats

The operators on `float64` and the functions of `math` that the scores are computed with. They
are parameters: what a score is worth depends on them, which documents get one does not.
-/

namespace Xsiam

namespace Go

/-- The operators on `float64`, and what is used of `math`. -/
structure FloatOps where
  add : Float64 → Float64 → Float64
  mul : Float64 → Float64 → Float64
  div : Float64 → Float64 → Float64
  /-- `math.Min` -/
  min : Float64 → Float64 → Float64
  /-- `math.Log10` -/
  log10 : Float64 → Float64
  /-- `math.Round` -/
  round : Float64 → Float64
  /-- The conversion `float64(i)`. -/
  ofInt : ℤ → Float64

namespace Float64

/-- The operator `==`: the two zeros are equal, and a NaN is equal to nothing. -/
def eq (x y : Float64) : Bool := x.le y && y.le x

theorem eq_self {x : Float64} (h : x.isNaN = false) : x.eq x = true := by
  simp [eq, le, h]

/-! ### The constants -/

/-- `0.1` -/
def c0_1 : Float64 := ⟨0x3FB999999999999A⟩
/-- `0.15` -/
def c0_15 : Float64 := ⟨0x3FC3333333333333⟩
/-- `0.2` -/
def c0_2 : Float64 := ⟨0x3FC999999999999A⟩
/-- `0.3` -/
def c0_3 : Float64 := ⟨0x3FD3333333333333⟩
/-- `0.4` -/
def c0_4 : Float64 := ⟨0x3FD999999999999A⟩
/-- `0.5` -/
def c0_5 : Float64 := ⟨0x3FE0000000000000⟩
/-- `0.6` -/
def c0_6 : Float64 := ⟨0x3FE3333333333333⟩
/-- `0.7` -/
def c0_7 : Float64 := ⟨0x3FE6666666666666⟩
/-- `0.8` -/
def c0_8 : Float64 := ⟨0x3FE999999999999A⟩
/-- `1.0` -/
def c1 : Float64 := ⟨0x3FF0000000000000⟩
/-- `1.2` -/
def c1_2 : Float64 := ⟨0x3FF3333333333333⟩
/-- `1.5` -/
def c1_5 : Float64 := ⟨0x3FF8000000000000⟩
/-- `1.8` -/
def c1_8 : Float64 := ⟨0x3FFCCCCCCCCCCCCD⟩
/-- `2.0` -/
def c2 : Float64 := ⟨0x4000000000000000⟩
/-- `3.0` -/
def c3 : Float64 := ⟨0x4008000000000000⟩
/-- `5.0` -/
def c5 : Float64 := ⟨0x4014000000000000⟩
/-- `21` -/
def c21 : Float64 := ⟨0x4035000000000000⟩
/-- `60` -/
def c60 : Float64 := ⟨0x404E000000000000⟩
/-- `80` -/
def c80 : Float64 := ⟨0x4054000000000000⟩
/-- `100` -/
def c100 : Float64 := ⟨0x4059000000000000⟩

end Float64

end Go

end Xsiam
