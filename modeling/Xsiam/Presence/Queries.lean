import Xsiam.Presence.Keys
import Xsiam.Lib.RedisRanges

/-!
# Who is online, asked in three ways

`Count`, `OnlineKeys` and `IsOnline` of `internal/presence/presence.go` ask for the agents of a
tenant that were seen within `LeaseTTL` of now: how many there are, which, and whether one is
among them. Two of them count the edge of that window in, and `Count`, whose range is written with
a parenthesis, leaves it out. So the three agree (`Xsiam.Presence.queriesAgree_iff`) exactly while
no agent is at the edge.
-/

namespace Xsiam

namespace Presence

open Go Redis

namespace Registry

variable (reg : Registry)

/-! ### The queries -/

/-- `time.Now().Add(-LeaseTTL).UnixMilli()` -/
def deadline : ℤ := reg.now - leaseTTL

/-- `Count` -/
def count (tenantID : GoString) : Option ℕ := reg.zcount (keyOnline tenantID) (.excl reg.deadline)

/-- `OnlineKeys` -/
def onlineKeys (tenantID : GoString) : Option (List GoString) :=
  reg.zrangeByScore (keyOnline tenantID) (.incl reg.deadline)

/-- `Count` counts an agent. -/
def Counted (tenantID agentKey : GoString) : Prop :=
  ∃ at_, reg.score tenantID agentKey = some at_ ∧ (Bound.excl reg.deadline).admits at_ = true

/-- The three queries agree on a tenant. -/
structure QueriesAgree (tenantID : GoString) : Prop where
  count : reg.count tenantID = (reg.onlineKeys tenantID).map List.length
  nodup : ∀ keys, reg.onlineKeys tenantID = some keys → keys.Nodup
  online : ∀ agentKey, (∃ keys, reg.onlineKeys tenantID = some keys ∧ agentKey ∈ keys) ↔
    reg.isOnline tenantID agentKey = true
  counted : ∀ agentKey, reg.Counted tenantID agentKey → reg.isOnline tenantID agentKey = true

end Registry

/-! ### Where they agree -/

section Agree

variable {reg : Registry} {tenantID agentKey : GoString}

/-- `IsOnline` asks for a score in the range of `OnlineKeys`. -/
theorem isOnline_iff : reg.isOnline tenantID agentKey = true ↔
    ∃ at_, reg.score tenantID agentKey = some at_ ∧
      (Bound.incl reg.deadline).admits at_ = true := by
  rw [Registry.isOnline, Registry.deadline]
  cases reg.score tenantID agentKey with
  | none => simp
  | some at_ =>
    simp only [Option.some.injEq, exists_eq_left', Bound.admits_incl, decide_eq_true_eq]
    omega

theorem admits_incl {n : ℤ} {at_ : ℕ} (h : (Bound.excl n).admits at_ = true) :
    (Bound.incl n).admits at_ = true := Bound.admits_incl.mpr (Bound.admits_excl.mp h).le

theorem Registry.Counted.isOnline (h : reg.Counted tenantID agentKey) :
    reg.isOnline tenantID agentKey = true := by
  obtain ⟨at_, hscore, hmin⟩ := h
  exact isOnline_iff.mpr ⟨at_, hscore, admits_incl hmin⟩

/-- `Count` is the number of the keys exactly if nobody is at the edge. -/
theorem count_eq_iff : reg.count tenantID = (reg.onlineKeys tenantID).map List.length ↔
    ∀ agentKey at_, reg.score tenantID agentKey = some at_ → at_ + leaseTTL ≠ reg.now := by
  rw [Registry.onlineKeys, Db.length_zrangeByScore, Registry.count,
    Db.zcount_eq_iff fun _ => admits_incl]
  refine forall₃_congr fun agentKey at_ _ => ?_
  rw [Bound.admits_incl, Bound.admits_excl, Registry.deadline]
  omega

/-- **The queries agree on a tenant exactly if no agent of it was seen `LeaseTTL` ago to the
millisecond.** -/
theorem queriesAgree_iff (reg : Registry) (tenantID : GoString) :
    reg.QueriesAgree tenantID ↔
      ∀ agentKey at_, reg.score tenantID agentKey = some at_ → at_ + leaseTTL ≠ reg.now := by
  refine ⟨fun h => count_eq_iff.mp h.count, fun hedge => ?_⟩
  exact ⟨count_eq_iff.mpr hedge, fun _ => Db.nodup_zrangeByScore,
    fun _ => Db.mem_zrangeByScore.trans isOnline_iff.symm, fun _ => Registry.Counted.isOnline⟩

end Agree

/-- An agent is seen, and `LeaseTTL` goes by: it is listed, and not counted. -/
theorem not_queriesAgree :
    ¬∀ (reg : Registry) (tenantID : GoString), reg.QueriesAgree tenantID := by
  intro h
  have htyped : Typed (Registry.touch (.empty 0 inMemory) (str "t") (str "a1") (str "f1")) :=
    (Typed.empty 0 _).touch _ _ _
  have hcount := (h (Db.wait (Registry.touch (.empty 0 inMemory) (str "t") (str "a1") (str "f1"))
    leaseTTL) (str "t")).count
  refine count_eq_iff.mp hcount (str "a1") 0 ?_ ?_
  · rw [Registry.score_wait htyped, Registry.score_touch (Typed.empty 0 _), if_pos ⟨rfl, rfl⟩]
    rfl
  · show 0 + leaseTTL =
      (Registry.touch (.empty 0 inMemory) (str "t") (str "a1") (str "f1")).now + leaseTTL
    rw [Registry.now_touch]
    rfl

end Presence

end Xsiam
