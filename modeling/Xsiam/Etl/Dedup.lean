import Xsiam.Etl.Model

/-!
# The deduplicator

`internal/etl/dedup.go`: a map from a flattened key, tenant and value with a NUL
between them, to the time the key was first seen. A call removes the entries that
are older than *its own* window, whatever call recorded them, and then looks its key
up.

Times are readings of the monotonic clock in nanoseconds. A window is multiplied out
in 64 bits, so it wraps around past some 292 years, and the difference of two times
saturates.
-/

namespace Xsiam

namespace Etl

open Go

/-- `time.Duration(windowSec) * time.Second`. -/
def windowOf (windowSec : ℤ) : ℤ := (windowSec * 1000000000).bmod (2 ^ 64)

/-- `t.Sub(u)`. -/
def timeSub (t u : Time) : ℤ := max (-2 ^ 63) (min (t - u) (2 ^ 63 - 1))

/-- `Deduplicator`: the keys seen, each with the time it was first seen. -/
structure Deduplicator where
  seen : GoMap Time

/-- `NewDeduplicator`. -/
def newDeduplicator : Deduplicator := ⟨∅⟩

/-- The key a tenant and a value are flattened to. -/
def compositeKey (tenantID keyVal : GoString) : GoString := tenantID ++ 0 :: keyVal

/-- The eviction sweep of a call: every entry older than the window goes. -/
def Deduplicator.evict (d : Deduplicator) (now : Time) (window : ℤ) : Deduplicator :=
  ⟨d.seen.filter fun _ t => !decide (window < timeSub now t)⟩

/-- `Deduplicator.IsDuplicate`, at the time `now`. -/
def Deduplicator.isDuplicate (d : Deduplicator) (now : Time) (tenantID keyVal : GoString)
    (windowSec : ℤ) : Bool × Deduplicator :=
  if windowSec ≤ 0 ∨ keyVal = [] then (false, d)
  else
    let window := windowOf windowSec
    let k := compositeKey tenantID keyVal
    let d := d.evict now window
    let record : Bool × Deduplicator := (false, ⟨d.seen.insert k now⟩)
    match d.seen[k]? with
    | some firstSeen => if timeSub now firstSeen ≤ window then (true, d) else record
    | none => record

/-- The arguments of a call, and the time it is made at. -/
structure DedupCall where
  now : Time
  tenantID : GoString
  keyVal : GoString
  windowSec : ℤ
deriving DecidableEq

/-- Make a call. -/
def DedupCall.run (c : DedupCall) (d : Deduplicator) : Bool × Deduplicator :=
  d.isDuplicate c.now c.tenantID c.keyVal c.windowSec

/-- A call that the deduplicator looks at: the window is positive, and the key is not
empty. -/
structure LiveCall extends DedupCall where
  window_pos : 0 < windowSec
  keyVal_ne : keyVal ≠ []
deriving DecidableEq

/-- Any other call is no duplicate, and leaves nothing. -/
theorem DedupCall.run_of_not_live {c : DedupCall} (h : ¬(0 < c.windowSec ∧ c.keyVal ≠ []))
    (d : Deduplicator) : c.run d = (false, d) := by
  have hskip : c.windowSec ≤ 0 ∨ c.keyVal = [] := by
    rcases not_and_or.mp h with hw | hk
    · exact Or.inl (not_lt.mp hw)
    · exact Or.inr (not_not.mp hk)
  rw [run, Deduplicator.isDuplicate, if_pos hskip]

end Etl

end Xsiam
